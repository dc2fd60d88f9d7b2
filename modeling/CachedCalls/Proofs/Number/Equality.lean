import CachedCalls.Number.Binary

set_option autoImplicit false

namespace CachedCalls.Number

open Float.Model Float.Model.UnpackedFloat

abbrev Word := BitVec Format.binary64.numBits

section Word

variable (w : Word)

theorem unpackSign_toNat : (unpackSign w).toNat = (w.toNat >>> 63) % 2 := rfl

theorem unpackExponent_toNat : (unpackExponent w).toNat = (w.toNat >>> 52) % 0x800 := rfl

theorem unpackMantissa_toNat : (unpackMantissa w).toNat = (w.toNat >>> 0) % 0x10000000000000 := rfl

end Word

theorem word_ext {a b : Word} (hs : unpackSign a = unpackSign b)
    (he : unpackExponent a = unpackExponent b) (hm : unpackMantissa a = unpackMantissa b) :
    a = b := by
  have ha : a.toNat < 0x10000000000000000 := a.isLt
  have hb : b.toNat < 0x10000000000000000 := b.isLt
  have hs := congrArg BitVec.toNat hs
  have he := congrArg BitVec.toNat he
  have hm := congrArg BitVec.toNat hm
  simp only [unpackSign_toNat, unpackExponent_toNat, unpackMantissa_toNat,
    Nat.shiftRight_eq_div_pow] at hs he hm
  apply BitVec.eq_of_toNat_eq
  omega

theorem sign_inj {s t : BitVec 1} (h : Sign.ofBitVec s = Sign.ofBitVec t) : s = t := by
  obtain rfl | rfl := BitVec.eq_zero_or_eq_one s <;>
    obtain rfl | rfl := BitVec.eq_zero_or_eq_one t <;> first | rfl | cases h

theorem unpack_cases (w : Word) :
    (unpackExponent w = -1#11 ∧ unpackMantissa w = 0#52 ∧
        unpack Format.binary64 w = .infinity (Sign.ofBitVec (unpackSign w))) ∨
      (unpackExponent w = -1#11 ∧ unpack Format.binary64 w = .notANumber) ∨
      unpack Format.binary64 w = .zero (Sign.ofBitVec (unpackSign w)) ∨
      (unpackExponent w = 0#11 ∧ ∃ hm, unpack Format.binary64 w =
        .finite (Sign.ofBitVec (unpackSign w)) (unpackMantissa w).toNat
          ((unpackExponent w).toNat - (1075 : Int) + 1) hm) ∨
      (unpackExponent w ≠ 0#11 ∧ ∃ hm, unpack Format.binary64 w =
        .finite (Sign.ofBitVec (unpackSign w)) (1#1 ++ unpackMantissa w).toNat
          ((unpackExponent w).toNat - (1075 : Int)) hm) := by
  by_cases he : unpackExponent w = -1#11
  · by_cases hm : unpackMantissa w = 0#52
    · exact .inl ⟨he, hm, (if_pos he).trans (if_pos hm)⟩
    · exact .inr (.inl ⟨he, (if_pos he).trans (if_neg hm)⟩)
  · refine .inr (.inr ?_)
    by_cases hz : unpackExponent w = 0#11
    · by_cases hm : unpackMantissa w = 0#52
      · exact .inl ((if_neg he).trans ((if_pos hz).trans (dif_pos hm)))
      · exact .inr (.inl ⟨hz, _, (if_neg he).trans ((if_pos hz).trans (dif_neg hm))⟩)
    · exact .inr (.inr ⟨hz, _, (if_neg he).trans (if_neg hz)⟩)

section Parts

variable {w : Word} {s : Sign}

theorem parts_of_infinity (h : unpack Format.binary64 w = .infinity s) :
    Sign.ofBitVec (unpackSign w) = s ∧ unpackExponent w = -1#11 ∧ unpackMantissa w = 0#52 := by
  obtain ⟨he, hm, hw⟩ | ⟨-, hw⟩ | hw | ⟨-, _, hw⟩ | ⟨-, _, hw⟩ := unpack_cases w
  · exact ⟨UnpackedFloat.infinity.inj (hw.symm.trans h), he, hm⟩
  all_goals cases hw.symm.trans h

theorem exponent_of_notANumber (h : unpack Format.binary64 w = .notANumber) :
    unpackExponent w = -1#11 := by
  obtain ⟨-, -, hw⟩ | ⟨he, -⟩ | hw | ⟨-, _, hw⟩ | ⟨-, _, hw⟩ := unpack_cases w
  · cases hw.symm.trans h
  · exact he
  all_goals cases hw.symm.trans h

theorem parts_of_finite {m : Nat} {e : Int} {hm : 0 < m}
    (h : unpack Format.binary64 w = .finite s m e hm) : Sign.ofBitVec (unpackSign w) = s ∧
      ((unpackExponent w = 0#11 ∧ m = (unpackMantissa w).toNat ∧ e = -1074) ∨
        (unpackExponent w ≠ 0#11 ∧ m = 0x10000000000000 + (unpackMantissa w).toNat ∧
          e = (unpackExponent w).toNat - (1075 : Int))) := by
  obtain ⟨-, -, hw⟩ | ⟨-, hw⟩ | hw | ⟨he, _, hw⟩ | ⟨he, _, hw⟩ := unpack_cases w
  · cases hw.symm.trans h
  · cases hw.symm.trans h
  · cases hw.symm.trans h
  · cases hw.symm.trans h
    refine ⟨rfl, .inl ⟨he, rfl, ?_⟩⟩
    rw [he]
    rfl
  · cases hw.symm.trans h
    refine ⟨rfl, .inr ⟨he, ?_, rfl⟩⟩
    have hlt := (unpackMantissa w).isLt
    rw [BitVec.toNat_append, ← Nat.shiftLeft_add_eq_or_of_lt hlt]
    rfl

end Parts

theorem word_of_infinity {v w : Word} {s : Sign} (hv : unpack Format.binary64 v = .infinity s)
    (hw : unpack Format.binary64 w = .infinity s) : v = w := by
  obtain ⟨hvs, hve, hvm⟩ := parts_of_infinity hv
  obtain ⟨hws, hwe, hwm⟩ := parts_of_infinity hw
  exact word_ext (sign_inj (hvs.trans hws.symm)) (hve.trans hwe.symm) (hvm.trans hwm.symm)

theorem word_of_finite {v w : Word} {s : Sign} {m : Nat} {e : Int} {hm : 0 < m}
    (hv : unpack Format.binary64 v = .finite s m e hm)
    (hw : unpack Format.binary64 w = .finite s m e hm) : v = w := by
  obtain ⟨hvs, hv⟩ := parts_of_finite hv
  obtain ⟨hws, hw⟩ := parts_of_finite hw
  have hvlt : (unpackMantissa v).toNat < 0x10000000000000 := (unpackMantissa v).isLt
  have hwlt : (unpackMantissa w).toNat < 0x10000000000000 := (unpackMantissa w).isLt
  have hparts : unpackExponent v = unpackExponent w ∧ unpackMantissa v = unpackMantissa w := by
    obtain ⟨hve, hvm, -⟩ | ⟨-, hvm, hve⟩ := hv <;> obtain ⟨hwe, hwm, -⟩ | ⟨-, hwm, hwe⟩ := hw
    · exact ⟨hve.trans hwe.symm, BitVec.eq_of_toNat_eq (by omega)⟩
    · omega
    · omega
    · exact ⟨BitVec.eq_of_toNat_eq (by omega), BitVec.eq_of_toNat_eq (by omega)⟩
  exact word_ext (sign_inj (hvs.trans hws.symm)) hparts.1 hparts.2

theorem eq_of_then {e f : Int} {m n : Nat} (h : (compare e f).then (compare m n) = .eq) :
    e = f ∧ m = n := by
  obtain ⟨he, hm⟩ := Ordering.then_eq_eq.1 h
  exact ⟨Std.LawfulEqOrd.eq_of_compare he, Std.LawfulEqOrd.eq_of_compare hm⟩

/-- Two unpacked floats that are the same number are the same infinity, the same finite number, or
    two zeros. -/
theorem compare_eq_cases {x y : UnpackedFloat} (h : x.compare y = some .eq) :
    (∃ s, x = .infinity s ∧ y = .infinity s) ∨ (∃ s t, x = .zero s ∧ y = .zero t) ∨
      ∃ s m e hm, x = .finite s m e hm ∧ y = .finite s m e hm := by
  cases x with
  | notANumber => cases y <;> cases h
  | infinity s =>
    cases y with
    | infinity t => cases s <;> cases t <;> first | exact .inl ⟨_, rfl, rfl⟩ | cases h
    | notANumber | zero t | finite t => cases s <;> cases h
  | zero s =>
    cases y with
    | zero t => exact .inr (.inl ⟨s, t, rfl, rfl⟩)
    | notANumber => cases h
    | infinity t | finite t => cases t <;> cases h
  | finite s m e hm =>
    cases y with
    | notANumber | zero t => cases s <;> cases h
    | infinity t => cases s <;> cases t <;> cases h
    | finite t n f hn =>
      have hsame : s = t ∧ e = f ∧ m = n := by
        cases s <;> cases t
        · exact ⟨rfl, eq_of_then (Ordering.swap_eq_eq.1 (Option.some.inj h))⟩
        · cases h
        · cases h
        · exact ⟨rfl, eq_of_then (Option.some.inj h)⟩
      obtain ⟨rfl, rfl, rfl⟩ := hsame
      exact .inr (.inr ⟨s, m, e, hm, rfl, rfl⟩)

theorem float_of_toBits {x y : Float} (h : x.toBits = y.toBits) : x = y := by
  obtain ⟨⟨a, ha⟩⟩ := x
  obtain ⟨⟨b, hb⟩⟩ := y
  cases h
  rfl

theorem beq_zero_of_unpack {x : Float} {s : Sign} (h : x.toModel.unpack = .zero s) :
    (x == 0.0) = true := by
  have hzero : (0.0 : Float).toModel.unpack = .zero .positive := rfl
  change (x.toModel.unpack.compare (0.0 : Float).toModel.unpack == some .eq) = true
  rw [h, hzero]
  rfl

theorem eq_or_zero_of_beq {x y : Float} (h : (x == y) = true) :
    x = y ∨ ((x == 0.0) = true ∧ (y == 0.0) = true) := by
  have hcompare : x.toModel.unpack.compare y.toModel.unpack = some .eq := eq_of_beq h
  obtain ⟨s, hx, hy⟩ | ⟨s, t, hx, hy⟩ | ⟨s, m, e, hm, hx, hy⟩ := compare_eq_cases hcompare
  · exact .inl (float_of_toBits (UInt64.toBitVec_inj.1 (word_of_infinity hx hy)))
  · exact .inr ⟨beq_zero_of_unpack hx, beq_zero_of_unpack hy⟩
  · exact .inl (float_of_toBits (UInt64.toBitVec_inj.1 (word_of_finite hx hy)))

end CachedCalls.Number
