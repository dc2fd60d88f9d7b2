import CachedCalls.Proofs.Number.Magnitude
import CachedCalls.Proofs.Number.Order
import Mathlib.Algebra.Order.Group.Nat

set_option autoImplicit false

namespace CachedCalls.Number

/-- What to multiply `d` by to come nearest to `n`; of two such factors it is the even one. -/
def nearestFactor (n d : Nat) : Nat :=
  if 2 * (n % d) < d ∨ (2 * (n % d) = d ∧ n / d % 2 = 0) then n / d else n / d + 1

def spacing (n : Nat) : Nat := 2 ^ (n.log2 - 52)

def nearestMagnitude (n : Nat) : Nat := nearestFactor n (spacing n) * spacing n

/-- The whole number that the nearest float stands for. -/
def nearestWhole : Int → Int
  | .ofNat n => nearestMagnitude n
  | .negSucc n => -nearestMagnitude (n + 1)

section Factors

variable {m n c d : Nat}

theorem nearestFactor_mono (h : m ≤ n) : nearestFactor m d ≤ nearestFactor n d := by
  have hdiv : m / d ≤ n / d := Nat.div_le_div_right h
  have hm := Nat.div_add_mod m d
  have hn := Nat.div_add_mod n d
  unfold nearestFactor
  obtain hlt | heq := Nat.lt_or_eq_of_le hdiv
  · split <;> split <;> omega
  · rw [heq] at hm ⊢
    split <;> split <;> omega

theorem nearestFactor_of_dvd (h : d ∣ n) : nearestFactor n d = n / d := by
  have hmod : n % d = 0 := Nat.mod_eq_zero_of_dvd h
  unfold nearestFactor
  rw [hmod]
  obtain rfl | hpos := Nat.eq_zero_or_pos d
  · simp
  · rw [if_pos (.inl (by omega))]

theorem nearestFactor_mul_right (hc : 0 < c) : nearestFactor (n * c) (d * c) = nearestFactor n d := by
  have hlt : 2 * (n % d * c) < d * c ↔ 2 * (n % d) < d := by
    rw [← Nat.mul_assoc, Nat.mul_lt_mul_right hc]
  have heq : 2 * (n % d * c) = d * c ↔ 2 * (n % d) = d := by
    rw [← Nat.mul_assoc, Nat.mul_left_inj hc.ne']
  simp only [nearestFactor, Nat.mul_mod_mul_right, Nat.mul_div_mul_right _ _ hc, hlt, heq]

theorem nearestMagnitude_of_dvd (h : spacing n ∣ n) : nearestMagnitude n = n := by
  rw [nearestMagnitude, nearestFactor_of_dvd h, Nat.div_mul_cancel h]

theorem nearestMagnitude_of_lt (h : n < 0x20000000000000) : nearestMagnitude n = n := by
  have hlog : n.log2 ≤ 52 := by
    by_cases hn : n = 0
    · rw [hn, Nat.log2_zero]
      exact Nat.zero_le _
    · exact Nat.le_of_lt_succ ((Nat.log2_lt hn).2 h)
  refine nearestMagnitude_of_dvd ?_
  rw [spacing, Nat.sub_eq_zero_of_le hlog]
  exact Nat.one_dvd n

theorem log2_mul_pow (hn : n ≠ 0) (j : Nat) : (n * 2 ^ j).log2 = n.log2 + j := by
  rw [Nat.log2_eq_iff (Nat.mul_ne_zero hn (Nat.two_pow_pos j).ne')]
  have hlow := Nat.log2_self_le hn
  have hhigh := Nat.lt_log2_self (n := n)
  constructor
  · rw [Nat.pow_add]
    exact Nat.mul_le_mul_right _ hlow
  · rw [Nat.add_right_comm, Nat.pow_add]
    exact Nat.mul_lt_mul_of_pos_right hhigh (Nat.two_pow_pos j)

theorem nearestMagnitude_mul_pow (n j : Nat) :
    nearestMagnitude (n * 2 ^ j) = nearestMagnitude n * 2 ^ j := by
  obtain rfl | hn := Nat.eq_zero_or_pos n
  · rw [Nat.zero_mul, nearestMagnitude_of_lt (by decide), Nat.zero_mul]
  · have hlog := log2_mul_pow hn.ne' j
    by_cases hsmall : n.log2 ≤ 52
    · have hexact : nearestMagnitude n = n :=
        nearestMagnitude_of_lt ((Nat.log2_lt hn.ne').1 (Nat.lt_succ_of_le hsmall))
      rw [hexact]
      refine nearestMagnitude_of_dvd ?_
      rw [spacing, hlog]
      exact Nat.dvd_mul_left_of_dvd (Nat.pow_dvd_pow 2 (by omega)) n
    · have hspacing : spacing (n * 2 ^ j) = spacing n * 2 ^ j := by
        rw [spacing, hlog, Nat.sub_add_comm (by omega), Nat.pow_add]
        rfl
      rw [nearestMagnitude, hspacing, nearestFactor_mul_right (Nat.two_pow_pos j), nearestMagnitude,
        Nat.mul_assoc]

theorem nearestFactor_bounds (hn : 52 ≤ n.log2) :
    0x10000000000000 ≤ nearestFactor n (spacing n) ∧
      nearestFactor n (spacing n) ≤ 0x20000000000000 := by
  have hpos : 0 < spacing n := Nat.two_pow_pos _
  have hlow : 0x10000000000000 * spacing n ≤ n := by
    have h : 2 ^ n.log2 ≤ n := Nat.log2_self_le (by rintro rfl; exact absurd hn (by decide))
    rwa [← Nat.add_sub_of_le hn, Nat.pow_add] at h
  have hhigh : n ≤ 0x20000000000000 * spacing n := by
    have h : n < 2 ^ (n.log2 + 1) := Nat.lt_log2_self
    rw [show n.log2 + 1 = 53 + (n.log2 - 52) by omega, Nat.pow_add] at h
    exact h.le
  have hlow := nearestFactor_mono (d := spacing n) hlow
  have hhigh := nearestFactor_mono (d := spacing n) hhigh
  rw [nearestFactor_of_dvd (Nat.dvd_mul_left _ _), Nat.mul_div_cancel _ hpos] at hlow hhigh
  exact ⟨hlow, hhigh⟩

theorem nearestMagnitude_mono_of_log2 (hm : 52 ≤ m.log2) (h : m ≤ n) :
    nearestMagnitude m ≤ nearestMagnitude n := by
  have hm0 : m ≠ 0 := by
    rintro rfl
    exact absurd hm (by decide)
  have hlog : m.log2 ≤ n.log2 := (Nat.le_log2 (by omega)).2 ((Nat.log2_self_le hm0).trans h)
  obtain hlt | heq := Nat.lt_or_eq_of_le hlog
  · have hspacing : 2 * spacing m ≤ spacing n := by
      rw [spacing, spacing, ← Nat.pow_succ']
      exact Nat.pow_le_pow_right (by decide) (by omega)
    calc nearestMagnitude m
        ≤ 0x20000000000000 * spacing m := Nat.mul_le_mul_right _ (nearestFactor_bounds hm).2
      _ = 0x10000000000000 * (2 * spacing m) := by rw [← Nat.mul_assoc]
      _ ≤ 0x10000000000000 * spacing n := Nat.mul_le_mul_left _ hspacing
      _ ≤ nearestMagnitude n := Nat.mul_le_mul_right _ (nearestFactor_bounds (hm.trans hlog)).1
  · have hspacing : spacing m = spacing n := by rw [spacing, heq, spacing]
    rw [nearestMagnitude, hspacing]
    exact Nat.mul_le_mul_right _ (nearestFactor_mono h)

theorem nearestMagnitude_mono (h : m ≤ n) : nearestMagnitude m ≤ nearestMagnitude n := by
  obtain rfl | hm := Nat.eq_zero_or_pos m
  · rw [nearestMagnitude_of_lt (by decide)]
    exact Nat.zero_le _
  · have hscaled := nearestMagnitude_mono_of_log2 (m := m * 2 ^ 52) (n := n * 2 ^ 52)
      (by rw [log2_mul_pow hm.ne']; omega) (Nat.mul_le_mul_right _ h)
    rw [nearestMagnitude_mul_pow, nearestMagnitude_mul_pow] at hscaled
    exact Nat.le_of_mul_le_mul_right hscaled (Nat.two_pow_pos 52)

end Factors

theorem nearestWhole_mono {m n : Int} (h : m ≤ n) : nearestWhole m ≤ nearestWhole n := by
  cases m with
  | ofNat m =>
    cases n with
    | ofNat n => exact Int.ofNat_le.2 (nearestMagnitude_mono (Int.ofNat_le.1 h))
    | negSucc n =>
      have hneg : Int.negSucc n < m := (Int.negSucc_lt_zero n).trans_le (Int.natCast_nonneg m)
      exact absurd h (Int.not_le.2 hneg)
  | negSucc m =>
    cases n with
    | ofNat n =>
      simp only [nearestWhole]
      omega
    | negSucc n =>
      have hmono := nearestMagnitude_mono (m := n + 1) (n := m + 1) (by omega)
      simp only [nearestWhole]
      omega

open Float.Model Float.Model.UnpackedFloat

section Round

variable (n k : Nat)

theorem shiftRight_succ : ExtendedMantissa.ofMantissaAndAccuracy n .exact >>> (k + 1) =
    ⟨n / 2 ^ (k + 1), n / 2 ^ k % 2 != 0, n % 2 ^ k != 0⟩ := by
  induction k with
  | zero =>
    rw [Nat.zero_add, Nat.pow_one, Nat.pow_zero, Nat.div_one, Nat.mod_one]
    rfl
  | succ k ih =>
    have hstep : ExtendedMantissa.ofMantissaAndAccuracy n .exact >>> (k + 1 + 1) =
      (ExtendedMantissa.ofMantissaAndAccuracy n .exact >>> (k + 1)).shiftRightOne := rfl
    have hrest : (n / 2 ^ k % 2 != 0 || n % 2 ^ k != 0) = (n % 2 ^ (k + 1) != 0) := by
      have hmod : n % 2 ^ (k + 1) = n % 2 ^ k + 2 ^ k * (n / 2 ^ k % 2) := Nat.mod_pow_succ
      have hpos := Nat.two_pow_pos k
      obtain hbit | hbit := Nat.mod_two_eq_zero_or_one (n / 2 ^ k)
      · rw [hmod, hbit, Nat.mul_zero, Nat.add_zero]
        rfl
      · rw [hmod, hbit, Nat.mul_one]
        exact (bne_iff_ne.2 (by omega)).symm
    rw [hstep, ih, ExtendedMantissa.shiftRightOne, Nat.div_div_eq_div_mul, ← Nat.pow_succ, hrest]

theorem roundedMantissa_shiftRight :
    (ExtendedMantissa.ofMantissaAndAccuracy n .exact >>> k).roundedMantissa =
      nearestFactor n (2 ^ k) := by
  cases k with
  | zero =>
    rw [Nat.pow_zero, nearestFactor_of_dvd (Nat.one_dvd n), Nat.div_one]
    rfl
  | succ k =>
    rw [shiftRight_succ]
    have hmod : n % 2 ^ (k + 1) = n % 2 ^ k + 2 ^ k * (n / 2 ^ k % 2) := Nat.mod_pow_succ
    have hlt := Nat.mod_lt n (Nat.two_pow_pos k)
    unfold nearestFactor
    rw [hmod, Nat.pow_succ]
    obtain hbit | hbit := Nat.mod_two_eq_zero_or_one (n / 2 ^ k)
    · rw [hbit, Nat.mul_zero, Nat.add_zero, if_pos (.inl (by omega))]
      cases hr : n % 2 ^ k != 0 <;> rfl
    · rw [hbit, Nat.mul_one]
      by_cases hr : n % 2 ^ k = 0
      · rw [hr]
        change n / (2 ^ k * 2) + n / (2 ^ k * 2) % 2 = _
        split <;> omega
      · rw [if_neg (by omega), bne_iff_ne.2 hr]
        rfl

end Round

/-- A float of this sign and 53 bits that is so many units. -/
inductive Stands (s : Sign) (u : Nat) : UnpackedFloat → Prop where
  | finite {m : Nat} {e : Int} (hm : 0 < m) : 0x10000000000000 ≤ m → m < 0x20000000000000 →
      -1074 ≤ e → e ≤ 971 → m * 2 ^ (e + 1074).toNat = u → Stands s u (.finite s m e hm)

section Rounded

variable {s : Sign} {m : Nat} {e : Int}

theorem shift_eq : shiftToTargetExponent Format.binary64 m e .exact =
    (ExtendedMantissa.ofMantissaAndAccuracy m .exact >>> (max (m.log2 - 52 : Int) (-1074 - e)).toNat,
      e + (max (m.log2 - 52 : Int) (-1074 - e)).toNat) := by
  have hshift : (Format.binary64.targetExponent (totalExponent m e) - e).toNat =
      (max (m.log2 - 52 : Int) (-1074 - e)).toNat := by
    rw [targetExponent_eq]
    unfold totalExponent
    omega
  simp only [shiftToTargetExponent, shiftToExponent, hshift]

theorem stands_of_mantissa {j : Nat} (hm : 0x10000000000000 ≤ m) (hm' : m ≤ 0x20000000000000)
    (he : -1074 ≤ e) (he' : e ≤ 970) (hj : (max (m.log2 - 52 : Int) (-1074 - e)).toNat = j)
    {n : Nat} (hn : n = m / 2 ^ j) :
    Stands s (m * 2 ^ (e + 1074).toNat) (if h : n = 0 then .zero s
      else .finite s n (e + j) (Nat.pos_of_ne_zero h)) := by
  subst hn
  obtain hlt | rfl := Nat.lt_or_eq_of_le hm'
  · have hlog : m.log2 = 52 := (Nat.log2_eq_iff (by omega)).2 ⟨hm, hlt⟩
    obtain rfl : j = 0 := by omega
    rw [dif_neg (by omega)]
    refine .finite _ (by omega) (by omega) (by omega) (by omega) ?_
    rw [Nat.pow_zero, Nat.div_one, Int.natCast_zero, Int.add_zero]
  · have hlog : (0x20000000000000 : Nat).log2 = 53 := by decide
    obtain rfl : j = 1 := by omega
    rw [dif_neg (by decide)]
    refine .finite _ (by decide) (by decide) (by omega) (by omega) ?_
    have hexp : (e + (1 : Nat) + 1074).toNat = (e + 1074).toNat + 1 := by omega
    have hpow : 2 ^ ((e + 1074).toNat + 1) = 2 * 2 ^ (e + 1074).toNat := Nat.pow_succ'
    rw [hexp, hpow]
    omega

theorem stands_round (hm : 0x10000000000000 ≤ m) (he : -1074 ≤ e) (hhigh : m.log2 + e ≤ 1022) :
    Stands s (nearestMagnitude m * 2 ^ (e + 1074).toNat)
      (roundWithAccuracy Format.binary64 s m e .exact) := by
  have hlog : 52 ≤ m.log2 := (Nat.le_log2 (by omega)).2 hm
  have hfirst : (max (m.log2 - 52 : Int) (-1074 - e)).toNat = m.log2 - 52 := by omega
  obtain ⟨hlow, hup⟩ := nearestFactor_bounds hlog
  have hvalue : nearestMagnitude m * 2 ^ (e + 1074).toNat =
      nearestFactor m (spacing m) * 2 ^ (e + (m.log2 - 52 : Nat) + 1074).toNat := by
    have hexp : (e + (m.log2 - 52 : Nat) + 1074).toNat = m.log2 - 52 + (e + 1074).toNat := by omega
    rw [nearestMagnitude, Nat.mul_assoc, spacing, ← Nat.pow_add, hexp]
  rw [hvalue, roundWithAccuracy_eq m e .exact s (by rw [shift_eq, hfirst]) shift_eq]
  refine stands_of_mantissa hlow hup (by omega) (by omega) ?_ ?_
  · rw [roundedMantissa_shiftRight]
    rfl
  · rw [mantissa_shiftRight, mantissa_ofAccuracy, roundedMantissa_shiftRight]
    rfl

end Rounded

theorem Stands.neg {s : Sign} {u : Nat} {x : UnpackedFloat} (h : Stands s u x) :
    Stands (-s) u x.neg := by
  cases h with
  | finite hm hlow hhigh he he' hu => exact .finite hm hlow hhigh he he' hu

theorem pack_normal {s : Sign} {m : Nat} {e : Int} (hm : 0 < m) (hlow : 0x10000000000000 ≤ m)
    (hhigh : m < 0x20000000000000) (he : -1074 ≤ e) (he' : e ≤ 971) :
    UnpackedFloat.pack Format.binary64 (.finite s m e hm) =
      packComponents Format.binary64 s (BitVec.ofNat 11 (e + 1075).toNat) (BitVec.ofNat 52 m) := by
  have hbias : e + Format.binary64.exponentBias + Format.binary64.mantissaBitsWithoutImplicit =
      e + 1075 := Int.add_assoc e 1023 52
  have hbits : 2 ^ Format.binary64.exponentBits = 2048 := rfl
  have hlog : m.log2 + 1 = Format.binary64.mantissaBits :=
    congrArg (· + 1) ((Nat.log2_eq_iff hm.ne').2 ⟨hlow, hhigh⟩)
  unfold UnpackedFloat.pack
  simp only [hbias, hbits]
  rw [if_neg (by omega), if_pos hlog]

theorem unpack_normal {w : Word} (he : unpackExponent w ≠ -1#11) (hz : unpackExponent w ≠ 0#11) :
    ∃ hm, unpack Format.binary64 w = .finite (Sign.ofBitVec (unpackSign w))
      (1#1 ++ unpackMantissa w).toNat ((unpackExponent w).toNat - (1075 : Int)) hm :=
  ⟨_, (if_neg he).trans (if_neg hz)⟩

theorem unpack_components (s : Sign) {x : BitVec 11} (y : BitVec 52) (hx : x ≠ -1#11)
    (hz : x ≠ 0#11) : ∃ hm, unpack Format.binary64 (packComponents Format.binary64 s x y) =
      .finite s (1#1 ++ y).toNat (x.toNat - (1075 : Int)) hm := by
  have hexp : unpackExponent (packComponents Format.binary64 s x y) = x :=
    unpackExponent_packComponents
  have hmant : unpackMantissa (packComponents Format.binary64 s x y) = y :=
    unpackMantissa_packComponents
  have hbit : unpackSign (packComponents Format.binary64 s x y) = s.toBitVec :=
    (BitVec.extractLsb'_append_eq_of_le (by decide)).trans BitVec.extractLsb'_append_eq_left
  have hsign : Sign.ofBitVec (unpackSign (packComponents Format.binary64 s x y)) = s := by
    rw [hbit]
    cases s <;> rfl
  obtain ⟨hm, hw⟩ := unpack_normal (mt hexp.symm.trans hx) (mt hexp.symm.trans hz)
  generalize packComponents Format.binary64 s x y = w at hexp hmant hsign hm hw ⊢
  subst hexp hmant hsign
  exact ⟨hm, hw⟩

theorem Stands.unpack_pack {s : Sign} {u : Nat} {x : UnpackedFloat} (h : Stands s u x) :
    (Float.Model.pack x).unpack = x := by
  cases h with
  | @finite m e hm hlow hhigh he he' hu =>
    have hexp : (BitVec.ofNat 11 (e + 1075).toNat).toNat = (e + 1075).toNat :=
      Nat.mod_eq_of_lt (show (e + 1075).toNat < 2048 by omega)
    have hmant : (1#1 ++ BitVec.ofNat 52 m).toNat = m := by
      rw [BitVec.toNat_append, ← Nat.shiftLeft_add_eq_or_of_lt (BitVec.isLt _)]
      change 0x10000000000000 + m % 0x10000000000000 = m
      omega
    have hnonzero : BitVec.ofNat 11 (e + 1075).toNat ≠ 0#11 := by
      intro h
      have hzero : (e + 1075).toNat = 0 := hexp.symm.trans (congrArg BitVec.toNat h)
      omega
    have hbelow : BitVec.ofNat 11 (e + 1075).toNat ≠ -1#11 := by
      intro h
      have hlast : (e + 1075).toNat = 2047 := hexp.symm.trans (congrArg BitVec.toNat h)
      omega
    change unpack Format.binary64 (UnpackedFloat.pack Format.binary64 (.finite s m e hm)) = _
    obtain ⟨hm', hunpack⟩ := unpack_components s (BitVec.ofNat 52 m) hbelow hnonzero
    rw [pack_normal hm hlow hhigh he he', hunpack]
    rw [UnpackedFloat.finite.injEq]
    exact ⟨rfl, hmant, by omega⟩

theorem Stands.units_eq {s : Sign} {u : Nat} {x : UnpackedFloat} (h : Stands s u x) :
    unpackedUnits x = s.apply u := by
  cases h with
  | finite hm hlow hhigh he he' hu => exact congrArg (fun n : Nat => s.apply n) hu

end CachedCalls.Number
