import CachedCalls.Proofs.Number.Equality
import Mathlib.Algebra.Group.Nat.Defs

/-!
The order of floats. A finite float is a whole number of units, the least positive float being one,
and floats are ordered as these numbers are.
-/

set_option autoImplicit false

namespace CachedCalls.Number

open Float.Model Float.Model.UnpackedFloat

/-- How many units of `2 ^ (-1074)` a number is; what is no finite number counts as none. -/
def unpackedUnits : UnpackedFloat → Int
  | .finite s m e _ => s.apply (m * 2 ^ (e + 1074).toNat : Nat)
  | _ => 0

def units (x : Float) : Int := unpackedUnits x.toModel.unpack

/-- Zero, or finite with a mantissa of 53 bits, or of fewer bits and the least exponent. -/
inductive Canonical : UnpackedFloat → Prop where
  | zero (s : Sign) : Canonical (.zero s)
  | finite {m : Nat} {e : Int} (s : Sign) (hm : 0 < m) : m < 0x20000000000000 → -1074 ≤ e →
      e = -1074 ∨ 0x10000000000000 ≤ m → Canonical (.finite s m e hm)

theorem canonical_unpack {w : Word} (h : (unpack Format.binary64 w).isFinite = true) :
    Canonical (unpack Format.binary64 w) := by
  have hlt : (unpackMantissa w).toNat < 0x10000000000000 := (unpackMantissa w).isLt
  cases hw : unpack Format.binary64 w with
  | notANumber | infinity s =>
    rw [hw] at h
    cases h
  | zero s => exact .zero s
  | finite s m e hm =>
    obtain ⟨-, ⟨-, rfl, rfl⟩ | ⟨hne, rfl, rfl⟩⟩ := parts_of_finite hw
    · exact .finite s hm (by omega) (Int.le_refl _) (.inl rfl)
    · have hpos : (unpackExponent w).toNat ≠ 0 := fun h => hne (BitVec.eq_of_toNat_eq h)
      exact .finite s hm (by omega) (by omega) (.inr (by omega))

section Magnitudes

variable {m n : Nat} {e f : Int}

theorem magnitude_lt (hm : m < 0x20000000000000) (he : -1074 ≤ e)
    (hnf : f = -1074 ∨ 0x10000000000000 ≤ n) (h : e < f) :
    m * 2 ^ (e + 1074).toNat < n * 2 ^ (f + 1074).toNat := by
  obtain ⟨k, hk⟩ : ∃ k, (f + 1074).toNat = (e + 1074).toNat + 1 + k :=
    ⟨(f + 1074).toNat - ((e + 1074).toNat + 1), by omega⟩
  have hfull : 0x10000000000000 ≤ n := hnf.resolve_left (by omega)
  calc m * 2 ^ (e + 1074).toNat
      < 0x20000000000000 * 2 ^ (e + 1074).toNat := Nat.mul_lt_mul_of_pos_right hm (Nat.two_pow_pos _)
    _ = 0x10000000000000 * 2 ^ ((e + 1074).toNat + 1) := by rw [Nat.pow_succ]; omega
    _ ≤ n * 2 ^ ((e + 1074).toNat + 1) := Nat.mul_le_mul_right _ hfull
    _ ≤ n * 2 ^ (f + 1074).toNat :=
      Nat.mul_le_mul_left _ (hk ▸ Nat.pow_le_pow_right (by decide) (Nat.le_add_right _ _))

theorem compare_magnitudes (hm : m < 0x20000000000000) (hn : n < 0x20000000000000)
    (he : -1074 ≤ e) (hf : -1074 ≤ f) (hme : e = -1074 ∨ 0x10000000000000 ≤ m)
    (hnf : f = -1074 ∨ 0x10000000000000 ≤ n) : (compare e f).then (compare m n) =
      compare (m * 2 ^ (e + 1074).toNat) (n * 2 ^ (f + 1074).toNat) := by
  obtain h | rfl | h := Int.lt_trichotomy e f
  · rw [Int.compare_eq_lt.2 h, Nat.compare_eq_lt.2 (magnitude_lt hm he hnf h)]
    rfl
  · rw [Int.compare_eq_eq.2 rfl, Ordering.eq_then]
    simp only [Nat.compare_eq_ite_lt, Nat.mul_lt_mul_right (Nat.two_pow_pos _)]
  · rw [Int.compare_eq_gt.2 h, Nat.compare_eq_gt.2 (magnitude_lt hn hf hme h)]
    rfl

end Magnitudes

theorem compare_natCast (a b : Nat) : compare (a : Int) (b : Int) = compare a b := by
  simp only [Int.compare_eq_ite_lt, Nat.compare_eq_ite_lt, Int.ofNat_lt]

theorem compare_neg (a b : Int) : compare (-a) (-b) = compare b a := by
  simp only [Int.compare_eq_ite_lt, Int.neg_lt_neg_iff]

section Signs

variable {m : Nat} {e : Int} {hm : 0 < m}

theorem units_negative : unpackedUnits (.finite .negative m e hm) < 0 := by
  have hpos : 0 < m * 2 ^ (e + 1074).toNat := Nat.mul_pos hm (Nat.two_pow_pos _)
  dsimp only [unpackedUnits, Sign.apply]
  omega

theorem units_positive : 0 < unpackedUnits (.finite .positive m e hm) :=
  Int.natCast_pos.2 (Nat.mul_pos hm (Nat.two_pow_pos _))

end Signs

theorem compare_canonical {x y : UnpackedFloat} (hx : Canonical x) (hy : Canonical y) :
    x.compare y = some (compare (unpackedUnits x) (unpackedUnits y)) := by
  cases hx with
  | zero s =>
    cases hy with
    | zero t => rfl
    | finite t =>
      cases t with
      | negative => exact congrArg some (Int.compare_eq_gt.2 units_negative).symm
      | positive => exact congrArg some (Int.compare_eq_lt.2 units_positive).symm
  | finite s hm hmlt he hme =>
    cases hy with
    | zero t =>
      cases s with
      | negative => exact congrArg some (Int.compare_eq_lt.2 units_negative).symm
      | positive => exact congrArg some (Int.compare_eq_gt.2 units_positive).symm
    | finite t hn hnlt hf hnf =>
      have hmag := compare_magnitudes hmlt hnlt he hf hme hnf
      cases s <;> cases t
      · refine congrArg some ?_
        dsimp only [unpackedUnits, Sign.apply]
        rw [hmag, compare_neg, compare_natCast, Nat.compare_swap]
      · exact congrArg some (Int.compare_eq_lt.2 (Int.lt_trans units_negative units_positive)).symm
      · exact congrArg some (Int.compare_eq_gt.2 (Int.lt_trans units_negative units_positive)).symm
      · refine congrArg some ?_
        dsimp only [unpackedUnits, Sign.apply]
        rw [hmag, compare_natCast]

section Floats

variable {x y : Float} (hx : x.isFinite = true) (hy : y.isFinite = true)

include hx hy

theorem compare_units :
    x.toModel.unpack.compare y.toModel.unpack = some (compare (units x) (units y)) :=
  compare_canonical (canonical_unpack hx) (canonical_unpack hy)

theorem lt_iff_units : x < y ↔ units x < units y := by
  have hlt : x < y ↔ x.toModel.unpack.compare y.toModel.unpack = some .lt := by
    simp [LT.lt, Float.lt, Float.Model.lt, UnpackedFloat.lt]
  rw [hlt, compare_units hx hy, Option.some.injEq, Int.compare_eq_lt]

theorem beq_eq_units : (x == y) = decide (units x = units y) := by
  have hbeq : (x == y) = (x.toModel.unpack.compare y.toModel.unpack == some .eq) := rfl
  rw [hbeq, compare_units hx hy, Bool.eq_iff_iff, beq_iff_eq, decide_eq_true_iff, Option.some.injEq,
    Int.compare_eq_eq]

end Floats

end CachedCalls.Number
