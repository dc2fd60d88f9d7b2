import CachedCalls.Key
import CachedCalls.Proofs.Number.Equality

set_option autoImplicit false

namespace CachedCalls

namespace Value

mutual

theorem length_hashed {a b : Value} (h : a.agrees b = true) : a.hashed.length = b.hashed.length := by
  match a, b with
  | null, null => rfl
  | bool a, bool b => rfl
  | int a, int b => rfl
  | float a, float b => rfl
  | str a, str b => rfl
  | arr as, arr bs =>
    simp only [hashed, List.length_cons]
    rw [length_hashedItems h]
  | obj as, obj bs =>
    simp only [hashed, List.length_cons]
    rw [length_hashedFields h]

theorem length_hashedItems {as bs : List Value} (h : agreesItems as bs = true) :
    (hashedItems as).length = (hashedItems bs).length := by
  match as, bs with
  | [], [] => rfl
  | a :: as, b :: bs =>
    obtain ⟨ha, has⟩ := Bool.and_eq_true_iff.1 h
    simp only [hashedItems, List.length_append]
    rw [length_hashed ha, length_hashedItems has]

theorem length_hashedFields {as bs : List (String × Value)} (h : agreesFields as bs = true) :
    (hashedFields as).length = (hashedFields bs).length := by
  match as, bs with
  | [], [] => rfl
  | (k, a) :: as, (l, b) :: bs =>
    obtain ⟨-, h⟩ := Bool.and_eq_true_iff.1 h
    obtain ⟨ha, has⟩ := Bool.and_eq_true_iff.1 h
    simp only [hashedFields, List.length_cons, List.length_append]
    rw [length_hashed ha, length_hashedFields has]

end

mutual

theorem eq_of_hashed {a b : Value} (h : a.agrees b = true) (hh : a.hashed = b.hashed) : a = b := by
  match a, b with
  | null, null => rfl
  | bool a, bool b => exact congrArg bool (of_decide_eq_true h)
  | int a, int b => exact congrArg int (of_decide_eq_true h)
  | float a, float b =>
    simp only [hashed, List.cons.injEq, HashPiece.bits.injEq, and_true, true_and] at hh
    exact congrArg float (Number.float_of_toBits (UInt64.toNat_inj.1 hh))
  | str a, str b => exact congrArg str (of_decide_eq_true h)
  | arr as, arr bs =>
    simp only [hashed, List.cons.injEq] at hh
    exact congrArg arr (items_of_hashed h hh.2.2)
  | obj as, obj bs =>
    simp only [hashed, List.cons.injEq] at hh
    exact congrArg obj (fields_of_hashed h hh.2.2)

theorem items_of_hashed {as bs : List Value} (h : agreesItems as bs = true)
    (hh : hashedItems as = hashedItems bs) : as = bs := by
  match as, bs with
  | [], [] => rfl
  | a :: as, b :: bs =>
    obtain ⟨ha, has⟩ := Bool.and_eq_true_iff.1 h
    obtain ⟨hhead, htail⟩ := List.append_inj hh (length_hashed ha)
    rw [eq_of_hashed ha hhead, items_of_hashed has htail]

theorem fields_of_hashed {as bs : List (String × Value)} (h : agreesFields as bs = true)
    (hh : hashedFields as = hashedFields bs) : as = bs := by
  match as, bs with
  | [], [] => rfl
  | (k, a) :: as, (l, b) :: bs =>
    obtain ⟨hk, h⟩ := Bool.and_eq_true_iff.1 h
    obtain ⟨ha, has⟩ := Bool.and_eq_true_iff.1 h
    obtain ⟨hhead, htail⟩ := List.append_inj (List.cons.inj hh).2 (length_hashed ha)
    rw [of_decide_eq_true hk, eq_of_hashed ha hhead, fields_of_hashed has htail]

end

end Value

theorem Key.eq_of_hashed {k l : Key} (h : k.agrees l = true) (hh : k.hashed = l.hashed) : k = l := by
  match k, l with
  | plain a, plain b => exact congrArg plain (Value.eq_of_hashed h (List.cons.inj hh).2)
  | composite as, composite bs =>
    obtain ⟨hp, h⟩ := Bool.and_eq_true_iff.1 h
    have hi := (List.cons.inj (of_decide_eq_true hp)).2
    exact congrArg composite (Value.items_of_hashed h hi)

end CachedCalls
