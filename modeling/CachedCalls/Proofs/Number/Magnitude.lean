import CachedCalls.Proofs.Number.Equality
import Mathlib.Algebra.Group.Nat.Defs

set_option autoImplicit false

namespace CachedCalls.Number

open Float.Model Float.Model.UnpackedFloat

/-- Zero, or finite with an exponent of `k` at most. -/
inductive Spans (k : Int) : UnpackedFloat → Prop where
  | zero (s : Sign) : Spans k (.zero s)
  | finite {m : Nat} {e : Int} (s : Sign) (hm : 0 < m) : e ≤ k → Spans k (.finite s m e hm)

/-- Zero, or less than `2 ^ (53 + k)` by a mantissa of 53 bits at most. -/
inductive Within (k : Int) : UnpackedFloat → Prop where
  | zero (s : Sign) : Within k (.zero s)
  | finite {m : Nat} {e : Int} (s : Sign) (hm : 0 < m) : m < 0x20000000000000 → e ≤ k →
      Within k (.finite s m e hm)

theorem targetExponent_eq (t : Int) :
    Format.binary64.targetExponent t = max (t - 53) (-1074) := rfl

theorem mantissa_shiftRight (em : ExtendedMantissa) (k : Nat) :
    (em >>> k).mantissa = em.mantissa / 2 ^ k := by
  induction k generalizing em with
  | zero => exact (Nat.div_one em.mantissa).symm
  | succ k ih =>
    have hsucc : (em >>> (k + 1)).mantissa = (em >>> k).mantissa / 2 := rfl
    rw [hsucc, ih, Nat.div_div_eq_div_mul, Nat.pow_succ]

theorem mantissa_ofAccuracy (m : Nat) (a : Accuracy) :
    (ExtendedMantissa.ofMantissaAndAccuracy m a).mantissa = m := by
  cases a with
  | exact => rfl
  | inexact o => cases o <;> rfl

theorem roundedMantissa_le (em : ExtendedMantissa) : em.roundedMantissa ≤ em.mantissa + 1 := by
  obtain ⟨m, r, s⟩ := em
  cases r <;> cases s <;>
    simp only [ExtendedMantissa.roundedMantissa, ExtendedMantissa.accuracy,
      Accuracy.roundToNearestEven] <;> omega

theorem log2_rounded_le {m r k : Nat} (h : r ≤ m / 2 ^ k + 1) : r.log2 ≤ m.log2 + 1 - k := by
  by_cases hr : r = 0
  · rw [hr, Nat.log2_zero]
    exact Nat.zero_le _
  · have hdiv : m / 2 ^ k < 2 ^ (m.log2 + 1 - k) := by
      rw [Nat.div_lt_iff_lt_mul (Nat.two_pow_pos k), ← Nat.pow_add]
      exact Nat.lt_of_lt_of_le Nat.lt_log2_self (Nat.pow_le_pow_right (by decide) (by omega))
    have hlt : r < 2 ^ (m.log2 + 1 - k + 1) := by
      rw [Nat.pow_succ]
      omega
    exact Nat.le_of_lt_succ ((Nat.log2_lt hr).2 hlt)

theorem log2_shiftLeft_le (m j : Nat) : (m <<< j).log2 ≤ m.log2 + j := by
  by_cases hm : m = 0
  · rw [hm, Nat.zero_shiftLeft, Nat.log2_zero]
    exact Nat.zero_le _
  · have hne : m <<< j ≠ 0 := mt Nat.shiftLeft_eq_zero_iff.1 hm
    refine Nat.le_of_lt_succ ((Nat.log2_lt hne).2 ?_)
    rw [Nat.shiftLeft_eq, Nat.succ_eq_add_one, Nat.add_right_comm, Nat.pow_add]
    exact Nat.mul_lt_mul_of_pos_right Nat.lt_log2_self (Nat.two_pow_pos j)

section Shift

variable (m : Nat) (e : Int) (a : Accuracy)

theorem shift_exponent : (shiftToTargetExponent Format.binary64 m e a).2 =
    max e (max (m.log2 - 52 + e) (-1074)) := by
  simp only [shiftToTargetExponent, shiftToExponent, targetExponent_eq, totalExponent]
  omega

theorem shift_log2_le : ((shiftToTargetExponent Format.binary64 m e a).1.roundedMantissa.log2 : Int) +
    (shiftToTargetExponent Format.binary64 m e a).2 ≤
      max (m.log2 + 1 + e) (shiftToTargetExponent Format.binary64 m e a).2 := by
  simp only [shiftToTargetExponent, shiftToExponent]
  generalize (Format.binary64.targetExponent (totalExponent m e) - e).toNat = j
  have hround := roundedMantissa_le (ExtendedMantissa.ofMantissaAndAccuracy m a >>> j)
  rw [mantissa_shiftRight, mantissa_ofAccuracy] at hround
  have hlog := log2_rounded_le hround
  omega

theorem roundWithAccuracy_eq (s : Sign) {p q : ExtendedMantissa × Int}
    (hp : shiftToTargetExponent Format.binary64 m e a = p)
    (hq : shiftToTargetExponent Format.binary64 p.1.roundedMantissa p.2 .exact = q) :
    roundWithAccuracy Format.binary64 s m e a = if h : q.1.mantissa = 0 then .zero s
      else .finite s q.1.mantissa q.2 (Nat.pos_of_ne_zero h) := by
  subst hp hq
  rfl

end Shift

variable {k : Int}

section Rounded

variable (hk : -1074 ≤ k) (s : Sign)

include hk

theorem roundWithAccuracy_spans {m : Nat} {e : Int} (a : Accuracy) (he : e ≤ k)
    (hm : m.log2 + e ≤ k + 51) : Spans k (roundWithAccuracy Format.binary64 s m e a) := by
  have hexp := shift_exponent m e a
  have hlog := shift_log2_le m e a
  have hsecond := shift_exponent (shiftToTargetExponent Format.binary64 m e a).1.roundedMantissa
    (shiftToTargetExponent Format.binary64 m e a).2 .exact
  generalize hq : shiftToTargetExponent Format.binary64
    (shiftToTargetExponent Format.binary64 m e a).1.roundedMantissa
    (shiftToTargetExponent Format.binary64 m e a).2 .exact = q at hsecond
  rw [roundWithAccuracy_eq m e a s rfl hq]
  by_cases hzero : q.1.mantissa = 0
  · rw [dif_pos hzero]
    exact .zero s
  · rw [dif_neg hzero]
    exact .finite s _ (by omega)

theorem round_spans {m : Nat} {e : Int} (hm : m.log2 + e ≤ k + 51) :
    Spans k (UnpackedFloat.round Format.binary64 s m e) := by
  unfold UnpackedFloat.round decreaseExponent
  simp only [targetExponent_eq, totalExponent]
  generalize hj : (e - max ((m.log2 : Int) + 1 + e - 53) (-1074)).toNat = j
  have hlog := log2_shiftLeft_le m j
  exact roundWithAccuracy_spans hk s .exact (by omega) (by omega)

theorem normalize_spans {n e : Int} (hn : n.natAbs.log2 + e ≤ k + 51) :
    Spans k (UnpackedFloat.normalize Format.binary64 n e s) := by
  unfold UnpackedFloat.normalize
  cases hsign : compare n 0 with
  | lt =>
    have hneg : (-n).toNat = n.natAbs := by
      have := Int.compare_eq_lt.1 hsign
      omega
    exact round_spans hk .negative (hneg ▸ hn)
  | eq => exact .zero s
  | gt =>
    have hpos : n.toNat = n.natAbs := by
      have := Int.compare_eq_gt.1 hsign
      omega
    exact round_spans hk .positive (hpos ▸ hn)

end Rounded

theorem pack_exponent {x : UnpackedFloat} (h : Spans k x) (hk : k ≤ 971) :
    ∃ n : Nat, n < 2047 ∧ (n : Int) ≤ max (k + 1075) 0 ∧
      unpackExponent (UnpackedFloat.pack Format.binary64 x) = BitVec.ofNat 11 n := by
  cases h with
  | zero s => exact ⟨0, by decide, Int.le_max_right _ _, unpackExponent_packComponents⟩
  | @finite m e s hm he =>
    have hbias : e + Format.binary64.exponentBias + Format.binary64.mantissaBitsWithoutImplicit =
        e + 1075 := Int.add_assoc e 1023 52
    have hbits : 2 ^ Format.binary64.exponentBits = 2048 := rfl
    unfold UnpackedFloat.pack
    simp only [hbias, hbits]
    have hfits : ¬ 2048 ≤ (e + 1075).toNat + 1 := by omega
    rw [if_neg hfits]
    split
    · exact ⟨(e + 1075).toNat, by omega, by omega, unpackExponent_packComponents⟩
    · exact ⟨0, by decide, Int.le_max_right _ _, unpackExponent_packComponents⟩

theorem unpack_within (hk : -1074 ≤ k) {w : Word} {n : Nat} (hn : n < 2047) (hnk : n ≤ k + 1075)
    (hw : unpackExponent w = BitVec.ofNat 11 n) : Within k (unpack Format.binary64 w) := by
  have hne : unpackExponent w ≠ -1#11 := by
    rw [hw]
    intro h
    have hmod : n % 2048 = 2047 := congrArg BitVec.toNat h
    omega
  cases h : unpack Format.binary64 w with
  | infinity s => exact absurd (parts_of_infinity h).2.1 hne
  | notANumber => exact absurd (exponent_of_notANumber h) hne
  | zero s => exact .zero s
  | finite s m e hm =>
    have hmant : (unpackMantissa w).toNat < 0x10000000000000 := (unpackMantissa w).isLt
    have hexp : (unpackExponent w).toNat = n := by
      rw [hw, BitVec.toNat_ofNat]
      exact Nat.mod_eq_of_lt (Nat.lt_succ_of_lt hn)
    obtain ⟨-, ⟨-, hm', he⟩ | ⟨-, hm', he⟩⟩ := parts_of_finite h
    · exact .finite s hm (by omega) (by omega)
    · exact .finite s hm (by omega) (by omega)

theorem within_pack {x : UnpackedFloat} (h : Spans k x) (hk : -1074 ≤ k) (hk' : k ≤ 971) :
    Within k (Float.Model.pack x).unpack := by
  obtain ⟨n, hn, hnk, hexp⟩ := pack_exponent h hk'
  exact unpack_within hk hn (by omega) hexp

theorem isFinite_of_within {x : Float} (h : Within k x.toModel.unpack) : x.isFinite = true := by
  change x.toModel.unpack.isFinite = true
  generalize x.toModel.unpack = u at h ⊢
  cases h <;> rfl

theorem Within.spans {x : UnpackedFloat} (h : Within k x) : Spans k x := by
  cases h with
  | zero s => exact .zero s
  | finite s hm _ he => exact .finite s hm he

theorem Within.mono {x : UnpackedFloat} {l : Int} (h : Within k x) (hkl : k ≤ l) : Within l x := by
  cases h with
  | zero s => exact .zero s
  | finite s hm hlt he => exact .finite s hm hlt (Int.le_trans he hkl)

theorem Within.neg {x : UnpackedFloat} (h : Within k x) : Within k x.neg := by
  cases h with
  | zero s => exact .zero (-s)
  | finite s hm hlt he => exact .finite (-s) hm hlt he

theorem log2_le_of_lt {n a : Nat} (h : n < 2 ^ (a + 1)) : n.log2 ≤ a := by
  by_cases hn : n = 0
  · rw [hn, Nat.log2_zero]
    exact Nat.zero_le _
  · exact Nat.le_of_lt_succ ((Nat.log2_lt hn).2 h)

theorem natAbs_apply (s : Sign) (n : Nat) : (s.apply n).natAbs = n := by
  cases s with
  | negative => exact Int.natAbs_neg n
  | positive => rfl

theorem apply_neg (s : Sign) (n : Int) : (-s).apply n = -s.apply n := by
  cases s with
  | negative => exact (Int.neg_neg n).symm
  | positive => rfl

theorem shifted_lt {m : Nat} (hm : m < 0x20000000000000) {i j : Nat} (hij : i ≤ j) :
    m <<< i < 2 ^ (53 + j) := by
  rw [Nat.shiftLeft_eq, Nat.pow_add]
  exact Nat.mul_lt_mul_of_lt_of_le hm (Nat.pow_le_pow_right (by decide) hij) (Nat.two_pow_pos j)

theorem add_spans {x y : UnpackedFloat} (hk : -1076 ≤ k) (hx : Within k x) (hy : Within k y) :
    Spans (k + 2) (UnpackedFloat.add Format.binary64 x y) := by
  have hmono : k ≤ k + 2 := by omega
  cases hx with
  | zero s =>
    cases hy with
    | zero t => cases s <;> cases t <;> exact .zero _
    | finite t hn hlt hf => exact .finite t hn (Int.le_trans hf hmono)
  | @finite m e s hm hmlt he =>
    cases hy with
    | zero t => exact .finite s hm (Int.le_trans he hmono)
    | @finite n f t hn hnlt hf =>
      have hi := shifted_lt hmlt (Nat.le_max_left (e - min e f).toNat (f - min e f).toNat)
      have hj := shifted_lt hnlt (Nat.le_max_right (e - min e f).toNat (f - min e f).toNat)
      refine normalize_spans (by omega) _ ?_
      have hsum := Int.natAbs_add_le (s.apply (m <<< (e - min e f).toNat : Nat))
        (t.apply (n <<< (f - min e f).toNat : Nat))
      rw [natAbs_apply, natAbs_apply] at hsum
      generalize hmax : max (e - min e f).toNat (f - min e f).toNat = j at hi hj
      have hlog := log2_le_of_lt (a := 53 + j)
        (Nat.lt_of_le_of_lt hsum (by rw [Nat.pow_succ]; omega))
      omega

theorem sub_eq_add_neg (x y : UnpackedFloat) : UnpackedFloat.sub Format.binary64 x y =
    UnpackedFloat.add Format.binary64 x y.neg := by
  cases x with
  | notANumber | infinity s | zero s => cases y <;> rfl
  | finite s m e hm =>
    cases y with
    | notANumber | infinity t | zero t => rfl
    | finite t n f hn =>
      dsimp only [UnpackedFloat.sub, UnpackedFloat.neg, UnpackedFloat.add]
      rw [apply_neg, ← Int.sub_eq_add_neg]

theorem mul_spans {x y : UnpackedFloat} {l : Int} (hkl : -1128 ≤ k + l) (hx : Within k x)
    (hy : Within l y) : Spans (k + l + 54) (UnpackedFloat.mul Format.binary64 x y) := by
  cases hx with
  | zero s => cases hy <;> exact .zero _
  | finite s hm hmlt he =>
    cases hy with
    | zero t => exact .zero _
    | finite t hn hnlt hf =>
      have hprod := Nat.mul_lt_mul_of_lt_of_lt hmlt hnlt
      have hlog := log2_le_of_lt (a := 105) hprod
      exact roundWithAccuracy_spans (by omega) _ .exact (by omega) (by omega)

section Floats

variable {x y : Float}

theorem add_within (hk : -1074 ≤ k) (hk' : k ≤ 969) (hx : Within k x.toModel.unpack)
    (hy : Within k y.toModel.unpack) : Within (k + 2) (x + y).toModel.unpack :=
  within_pack (add_spans (by omega) hx hy) (by omega) (by omega)

theorem sub_within (hk : -1074 ≤ k) (hk' : k ≤ 969) (hx : Within k x.toModel.unpack)
    (hy : Within k y.toModel.unpack) : Within (k + 2) (x - y).toModel.unpack := by
  have h := add_spans (by omega) hx hy.neg
  rw [← sub_eq_add_neg] at h
  exact within_pack h (by omega) (by omega)

theorem mul_within {l : Int} (hkl : -1128 ≤ k + l) (hkl' : k + l ≤ 917)
    (hx : Within k x.toModel.unpack) (hy : Within l y.toModel.unpack) :
    Within (k + l + 54) (x * y).toModel.unpack :=
  within_pack (mul_spans hkl hx hy) (by omega) (by omega)

theorem neg_within (hk : -1074 ≤ k) (hk' : k ≤ 971) (hx : Within k x.toModel.unpack) :
    Within k (-x).toModel.unpack :=
  within_pack hx.neg.spans hk hk'

end Floats

theorem toFloat_within (u : UInt64) : Within 12 u.toFloat.toModel.unpack := by
  have hlog : (u.toNat : Int).natAbs.log2 ≤ 63 := log2_le_of_lt u.toNat_lt
  exact within_pack (normalize_spans (by decide) .positive (n := u.toNat) (e := 0) (by omega))
    (by decide) (by decide)

theorem ofScientific_spans {n : Nat} (hn : n < 0x10000000000000000) :
    Spans 12 (UnpackedFloat.ofScientific Format.binary64 n 0) := by
  unfold UnpackedFloat.ofScientific
  by_cases hzero : n = 0
  · rw [dif_pos hzero]
    exact .zero .positive
  · have hbits : (2 : Int) ^ Format.binary64.exponentBits = 2048 := rfl
    rw [dif_neg hzero, hbits, if_neg (by decide), if_neg (by omega), if_pos (Int.le_refl 0)]
    have hlog := log2_shiftLeft_le n 53
    have hn : n.log2 ≤ 63 := log2_le_of_lt hn
    have hmant : Format.binary64.mantissaBits = 53 := rfl
    have hscale : (10 : Nat) ^ (0 : Int).toNat = 1 := rfl
    dsimp only [UnpackedFloat.mul]
    rw [hmant, hscale, Nat.mul_one]
    exact roundWithAccuracy_spans (by decide) _ .exact (by omega) (by omega)

theorem ofNat_within {n : Nat} (hn : n < 0x10000000000000000) :
    Within 14 (Float.ofNat n).toModel.unpack := by
  change Within 14 (Float.ofScientific n false 0).toModel.unpack
  unfold Float.ofScientific
  split
  · have hone : (Float.ofBits 0x3FF0000000000000).toModel.unpack =
        .finite .positive 0x10000000000000 (-52) (by decide) := rfl
    have hunit : Within (-52) (Float.ofBits 0x3FF0000000000000).toModel.unpack :=
      hone ▸ .finite .positive _ (by decide) (by decide)
    exact mul_within (by decide) (by decide) (toFloat_within n.toUInt64) hunit
  · exact (within_pack (ofScientific_spans hn) (by decide) (by decide)).mono (by decide)

theorem isSigned_iff {n : Int} :
    isSigned n = true ↔ -0x8000000000000000 ≤ n ∧ n < 0x8000000000000000 :=
  decide_eq_true_iff

theorem ofInt_within {n : Int} (hn : isSigned n = true) :
    Within 14 (Float.ofInt n).toModel.unpack := by
  obtain ⟨hlow, hhigh⟩ := isSigned_iff.1 hn
  cases n with
  | ofNat n =>
    have hn : (n : Int) < 0x8000000000000000 := hhigh
    exact ofNat_within (by omega)
  | negSucc n => exact neg_within (by decide) (by decide) (ofNat_within (by omega))

end CachedCalls.Number
