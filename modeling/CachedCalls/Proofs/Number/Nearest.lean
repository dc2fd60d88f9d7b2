import CachedCalls.Proofs.Number.Rounding

set_option autoImplicit false

namespace CachedCalls.Number

open Float.Model Float.Model.UnpackedFloat

def unitsOfOne : Nat := 2 ^ 1074

theorem unitsOfOne_pos : 0 < unitsOfOne := Nat.two_pow_pos 1074

section Whole

variable {n : Nat} (hn : 0 < n)

include hn

theorem stands_scaled {j : Nat} (hlow : 52 ≤ n.log2 + j) (hj : j ≤ 1074) (hhigh : n.log2 ≤ 1022) :
    Stands .positive (nearestMagnitude n * unitsOfOne)
      (roundWithAccuracy Format.binary64 .positive (n * 2 ^ j) (-j) .exact) := by
  have hlog := log2_mul_pow hn.ne' j
  have hbits : 0x10000000000000 ≤ n * 2 ^ j :=
    (Nat.le_log2 (Nat.mul_ne_zero hn.ne' (Nat.two_pow_pos j).ne')).1 (hlog ▸ hlow)
  have hvalue : nearestMagnitude n * unitsOfOne =
      nearestMagnitude (n * 2 ^ j) * 2 ^ (-(j : Int) + 1074).toNat := by
    have hexp : j + (-(j : Int) + 1074).toNat = 1074 := by omega
    rw [nearestMagnitude_mul_pow, Nat.mul_assoc, ← Nat.pow_add, hexp, unitsOfOne]
  rw [hvalue]
  exact stands_round hbits (by omega) (by omega)

variable (hsmall : n < 0x20000000000000)

include hsmall

theorem stands_normalize : Stands .positive (n * unitsOfOne)
    (UnpackedFloat.normalize Format.binary64 n 0 .positive) := by
  have hlog : n.log2 ≤ 52 := Nat.le_of_lt_succ ((Nat.log2_lt hn.ne').2 hsmall)
  have hcompare : compare (n : Int) 0 = .gt := Int.compare_eq_gt.2 (by omega)
  have hshift : (0 - Format.binary64.targetExponent (totalExponent n 0)).toNat = 52 - n.log2 := by
    rw [targetExponent_eq]
    unfold totalExponent
    omega
  have hscaled := stands_scaled hn (j := 52 - n.log2) (by omega) (by omega) (by omega)
  rw [nearestMagnitude_of_lt hsmall] at hscaled
  unfold UnpackedFloat.normalize UnpackedFloat.round decreaseExponent
  rw [hcompare]
  dsimp only
  rw [Int.toNat_natCast, hshift, Nat.shiftLeft_eq, Int.zero_sub]
  exact hscaled

/-- A product with one is rounded again, but there are no bits to lose. -/
theorem Stands.mul_one {x : UnpackedFloat} (h : Stands .positive (n * unitsOfOne) x) :
    Stands .positive (n * unitsOfOne)
      (UnpackedFloat.mul Format.binary64 x (.finite .positive 0x10000000000000 (-52) (by decide))) := by
  obtain ⟨j, hj⟩ : ∃ j, n.log2 + j = 52 :=
    ⟨52 - n.log2, Nat.add_sub_of_le (Nat.le_of_lt_succ ((Nat.log2_lt hn.ne').2 hsmall))⟩
  have hlog : (n * 2 ^ j).log2 = 52 := (log2_mul_pow hn.ne' j).trans hj
  obtain ⟨hlow', hhigh'⟩ := (Nat.log2_eq_iff (Nat.mul_ne_zero hn.ne' (Nat.two_pow_pos j).ne')).1 hlog
  cases h with
  | @finite m e hm hlow hhigh he he' hu =>
    have hvalue : m * 2 ^ (e + 1074).toNat = n * 2 ^ j * 2 ^ (-(j : Int) + 1074).toNat := by
      have hexp : j + (-(j : Int) + 1074).toNat = 1074 := by omega
      rw [hu, Nat.mul_assoc, ← Nat.pow_add, hexp, unitsOfOne]
    have hsame := compare_magnitudes hhigh hhigh' he (by omega : -1074 ≤ -(j : Int)) (.inr hlow)
      (.inr hlow')
    rw [hvalue, Nat.compare_eq_eq.2 rfl] at hsame
    obtain ⟨rfl, rfl⟩ := eq_of_then hsame
    have hscaled := stands_scaled hn (j := j + 52) (by omega) (by omega) (by omega)
    rw [nearestMagnitude_of_lt hsmall, Nat.pow_add, ← Nat.mul_assoc, Int.natCast_add,
      Int.neg_add] at hscaled
    exact hscaled

end Whole

theorem stands_ofScientific {n : Nat} (hn : 0 < n) (hhigh : n.log2 ≤ 1022) :
    Stands .positive (nearestMagnitude n * unitsOfOne)
      (UnpackedFloat.ofScientific Format.binary64 n 0) := by
  have hbits : (2 : Int) ^ Format.binary64.exponentBits = 2048 := rfl
  have hmant : Format.binary64.mantissaBits = 53 := rfl
  have hscale : (10 : Nat) ^ (0 : Int).toNat = 1 := rfl
  have hscaled := stands_scaled hn (j := 53) (by omega) (by decide) hhigh
  unfold UnpackedFloat.ofScientific
  rw [dif_neg hn.ne', hbits, if_neg (by decide), if_neg (by omega), if_pos (Int.le_refl 0)]
  dsimp only [UnpackedFloat.mul]
  rw [hmant, hscale, Nat.mul_one, Nat.shiftLeft_eq]
  exact hscaled

theorem stands_ofNat {n : Nat} (hn : 0 < n) (hn' : n < 0x10000000000000000) :
    Stands .positive (nearestMagnitude n * unitsOfOne) (Float.ofNat n).toModel.unpack := by
  change Stands .positive _ (Float.ofScientific n false 0).toModel.unpack
  unfold Float.ofScientific
  split
  · next hsmall =>
    have hone : (Float.ofBits 0x3FF0000000000000).toModel.unpack =
        .finite .positive 0x10000000000000 (-52) (by decide) := rfl
    have hword : n.toUInt64.toNat = n := Nat.mod_eq_of_lt hn'
    have hnormal := stands_normalize hn hsmall.1
    have hproduct := hnormal.mul_one hn hsmall.1
    change Stands .positive _ (Float.Model.pack (UnpackedFloat.mul Format.binary64
      (Float.Model.pack (UnpackedFloat.normalize Format.binary64 n.toUInt64.toNat 0 .positive)).unpack
      (Float.ofBits 0x3FF0000000000000).toModel.unpack)).unpack
    rw [hword, hnormal.unpack_pack, hone, hproduct.unpack_pack, nearestMagnitude_of_lt hsmall.1]
    exact hproduct
  · have hlog : n.log2 ≤ 63 := log2_le_of_lt hn'
    have hgreat := stands_ofScientific hn (by omega)
    change Stands .positive _ (Float.Model.pack (UnpackedFloat.ofScientific Format.binary64 n 0)).unpack
    rw [hgreat.unpack_pack]
    exact hgreat

theorem Stands.isFinite {s : Sign} {u : Nat} {x : Float} (h : Stands s u x.toModel.unpack) :
    x.isFinite = true := by
  change x.toModel.unpack.isFinite = true
  generalize x.toModel.unpack = y at h ⊢
  cases h
  rfl

theorem isWord_iff {n : Int} :
    isWord n = true ↔ -0x8000000000000000 ≤ n ∧ n < 0x10000000000000000 :=
  decide_eq_true_iff

theorem ofInt_nearest {n : Int} (hn : isWord n = true) :
    (Float.ofInt n).isFinite = true ∧ units (Float.ofInt n) = nearestWhole n * unitsOfOne := by
  obtain ⟨hlow, hhigh⟩ := isWord_iff.1 hn
  cases n with
  | ofNat n =>
    obtain rfl | hpos := Nat.eq_zero_or_pos n
    · have hzero : units (Float.ofInt (.ofNat 0)) = 0 := rfl
      have hnearest : nearestWhole (.ofNat 0) = 0 := rfl
      rw [hzero, hnearest, Int.zero_mul]
      exact ⟨rfl, rfl⟩
    · have h := stands_ofNat hpos (Int.ofNat_lt.1 hhigh)
      exact ⟨h.isFinite, h.units_eq⟩
  | negSucc n =>
    have hlt : (n + 1 : Nat) < 0x10000000000000000 := by omega
    have h := (stands_ofNat n.succ_pos hlt).neg
    have hneg : (Float.ofInt (.negSucc n)).toModel.unpack = (Float.ofNat (n + 1)).toModel.unpack.neg :=
      h.unpack_pack
    rw [← hneg] at h
    refine ⟨h.isFinite, h.units_eq.trans ?_⟩
    rw [nearestWhole, Int.neg_mul, ← Int.natCast_mul]
    rfl

section Words

variable {m n : Int} (hm : isWord m = true) (hn : isWord n = true)

include hm hn

theorem compare_ofInt :
    compare (units (Float.ofInt m)) (units (Float.ofInt n)) =
      compare (nearestWhole m) (nearestWhole n) := by
  have hpos : (0 : Int) < unitsOfOne := Int.natCast_pos.2 unitsOfOne_pos
  rw [(ofInt_nearest hm).2, (ofInt_nearest hn).2]
  simp only [Int.compare_eq_ite_lt, Int.mul_lt_mul_right hpos]

end Words

end CachedCalls.Number
