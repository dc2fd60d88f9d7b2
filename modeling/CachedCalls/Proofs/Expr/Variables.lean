import CachedCalls.Expr.Eval
import Mathlib.Data.List.Nodup

set_option autoImplicit false

namespace CachedCalls

namespace Number

theorem natural?_eq_some_iff {ds : List Char} {n : Nat} :
    natural? ds = some n ↔ ds ≠ [] ∧ (∀ c ∈ ds, isDigit c = true) ∧ ofDigits ds = n := by
  simp only [natural?, Option.ite_none_left_eq_some, Bool.or_eq_true, not_or, List.isEmpty_iff,
    Bool.not_eq_true', Bool.not_eq_false, List.all_eq_true, Option.some.injEq, and_assoc, ne_eq]

theorem natural?_toDigits (n : Nat) : natural? (Nat.toDigits 10 n) = some n := by
  refine natural?_eq_some_iff.2 ⟨Nat.toDigits_ne_nil, fun c hc => ?_, Nat.ofDigitChars_ten_toDigits⟩
  have hdigit := Nat.isDigit_of_mem_toDigits (by decide) (by decide) hc
  simpa [isDigit, Char.isDigit, Char.le_def] using hdigit

theorem word?_eq_some_iff {ds : List Char} {n : Nat} : word? ds = some n ↔
    n < wordCount ∧ (natural? ds = some n ∨ ∃ r, ds = '+' :: r ∧ natural? r = some n) := by
  unfold word?
  rw [Option.filter_eq_some_iff, decide_eq_true_iff, and_comm]
  refine and_congr_right fun _ => ?_
  split
  · next r =>
    have hplus : natural? ('+' :: r) ≠ some n := fun h =>
      absurd ((natural?_eq_some_iff.1 h).2.1 '+' List.mem_cons_self) (by decide)
    constructor
    · exact fun h => .inr ⟨r, rfl, h⟩
    · rintro (h | ⟨q, hq, h⟩)
      · exact absurd h hplus
      · rwa [List.tail_eq_of_cons_eq hq]
  · next hplus =>
    constructor
    · exact .inl
    · rintro (h | ⟨q, hq, -⟩)
      · exact h
      · exact absurd hq (hplus q)

end Number

namespace Scope

open Number

/-- An `a` or a `p` and then the number, before which a plus sign may stand. -/
def Positional (n : String) (i : Nat) : Prop :=
  ∃ c ds, n.toList = c :: ds ∧ (c = 'a' ∨ c = 'p') ∧
    (natural? ds = some i ∨ ∃ r, ds = '+' :: r ∧ natural? r = some i)

theorem positional_numbered {c : String} (hc : c = "a" ∨ c = "p") (i : Nat) :
    Positional (c ++ toString i) i := by
  have hchars : (c ++ toString i).toList = c.toList ++ Nat.toDigits 10 i := by
    rw [String.toList_append, Nat.toString_eq_ofList_toDigits, String.toList_ofList]
  obtain rfl | rfl := hc
  · exact ⟨'a', _, hchars, .inl rfl, .inl (natural?_toDigits i)⟩
  · exact ⟨'p', _, hchars, .inr rfl, .inl (natural?_toDigits i)⟩

theorem position?_eq_some_iff {n : String} {count i : Nat} :
    position? n count = some i ↔ Positional n i ∧ i < count ∧ i < wordCount := by
  cases hn : n.toList with
  | nil => simp only [position?, Positional, hn, reduceCtorEq, false_and, exists_false]
  | cons c ds =>
    by_cases hc : c = 'a' ∨ c = 'p'
    · simp only [position?, hn, if_pos hc, Option.filter_eq_some_iff, word?_eq_some_iff,
        decide_eq_true_iff]
      constructor
      · exact fun ⟨⟨hword, h⟩, hlt⟩ => ⟨⟨c, ds, hn, hc, h⟩, hlt, hword⟩
      · rintro ⟨⟨d, es, hd, -, h⟩, hlt, hword⟩
        cases hn.symm.trans hd
        exact ⟨⟨hword, h⟩, hlt⟩
    · simp only [position?, hn, if_neg hc, reduceCtorEq, false_iff]
      rintro ⟨⟨d, es, hd, hd', -⟩, -⟩
      cases hn.symm.trans hd
      exact hc hd'

variable {s : Scope} {n : String} {i : Nat}

/-- The names that mean the same whatever the parameters are. -/
def reserved : List String := [resultName, "root", "this"]

theorem Positional.not_reserved (h : Positional n i) : n ∉ reserved := by
  obtain ⟨c, ds, hn, hc, -⟩ := h
  have hfirst : n.toList.head? = some c := congrArg List.head? hn
  simp only [reserved, List.mem_cons, List.not_mem_nil, or_false]
  rintro (rfl | rfl | rfl)
  · obtain rfl : 'r' = c := Option.some.inj hfirst
    exact absurd hc (by decide)
  · obtain rfl : 'r' = c := Option.some.inj hfirst
    exact absurd hc (by decide)
  · obtain rfl : 't' = c := Option.some.inj hfirst
    exact absurd hc (by decide)

theorem lookup_eq (hfree : n ∉ reserved) (h : s.paramIndex? n = some i) :
    s.lookup n = .ok (s.argument i) := by
  simp only [reserved, List.mem_cons, List.not_mem_nil, or_false, not_or] at hfree
  obtain ⟨hresult, hroot, hthis⟩ := hfree
  simp only [lookup, if_neg hresult, hroot, hthis, or_self, if_false, h]

theorem paramIndex?_positional (h : Positional n i) (hi : i < s.implementation.params.length)
    (hword : i < wordCount) : s.paramIndex? n = some i := by
  have hposition : position? n s.implementation.paramNames.length = some i :=
    position?_eq_some_iff.2 ⟨h, by rwa [Method.paramNames, List.length_map], hword⟩
  rw [paramIndex?, hposition]
  rfl

theorem paramIndex?_named (hnames : s.implementation.paramNames.Nodup)
    (hn : s.implementation.paramNames[i]? = some n)
    (hown : ∀ j, j < s.implementation.params.length → Positional n j → j = i) :
    s.paramIndex? n = some i := by
  obtain ⟨hi, rfl⟩ := List.getElem?_eq_some_iff.1 hn
  have hfind : s.implementation.paramNames.findIdx? (· == s.implementation.paramNames[i]) = some i := by
    refine List.findIdx?_eq_some_iff_getElem.2 ⟨hi, beq_self_eq_true _, fun j hj heq => ?_⟩
    exact Nat.ne_of_lt hj (hnames.getElem_inj_iff.1 (eq_of_beq heq))
  simp only [paramIndex?, hfind]
  cases hposition : position? s.implementation.paramNames[i] s.implementation.paramNames.length with
  | none => rfl
  | some j =>
    obtain ⟨hpos, hj, -⟩ := position?_eq_some_iff.1 hposition
    rw [Method.paramNames, List.length_map] at hj
    rw [hown j hj hpos]
    rfl

theorem argument_item (h : s.args.length ≤ s.implementation.params.length ∨
    i + 1 ≠ s.implementation.params.length) : s.argument i = (s.args[i]?).getD .null :=
  if_neg fun hrest => h.elim (Nat.not_le_of_lt hrest.1) (· hrest.2)

theorem argument_rest (h : s.implementation.params.length < s.args.length)
    (hi : i + 1 = s.implementation.params.length) : s.argument i = .arr (s.args.drop i) :=
  if_pos ⟨h, hi⟩

end Scope

namespace Expr

open Number Scope

variable {s : Scope} {n : String} {i : Nat}

theorem eval_positional (h : Positional n i) (hi : i < s.implementation.params.length)
    (hword : i < wordCount) : eval s (.var n) = .ok (s.argument i) :=
  lookup_eq h.not_reserved (paramIndex?_positional h hi hword)

/-- The name of a parameter stands for its argument, unless it is the position of another parameter;
    it stands for the argument of that one then. -/
theorem eval_parameter {s : Scope} (hnames : s.implementation.paramNames.Nodup)
    (hfree : ∀ n ∈ s.implementation.paramNames, n ∉ reserved)
    (hlen : s.args.length = s.implementation.params.length) {i : Nat} {n : String} {v : Value}
    (hn : s.implementation.paramNames[i]? = some n) (hv : s.args[i]? = some v) :
    ((∀ j, j < s.implementation.params.length → Positional n j → j = i) →
        eval s (.var n) = .ok v) ∧
      ∀ j w, j < wordCount → Positional n j → s.args[j]? = some w → eval s (.var n) = .ok w := by
  constructor
  · intro hown
    have hlookup : eval s (.var n) = .ok (s.argument i) :=
      lookup_eq (hfree n (List.mem_of_getElem? hn)) (paramIndex?_named hnames hn hown)
    rw [hlookup, argument_item (.inl (Nat.le_of_eq hlen)), hv, Option.getD_some]
  · intro j w hword hpos hw
    obtain ⟨hj, -⟩ := List.getElem?_eq_some_iff.1 hw
    rw [eval_positional hpos (hlen ▸ hj) hword, argument_item (.inl (Nat.le_of_eq hlen)), hw, Option.getD_some]

def crossedScope : Scope where
  method := ⟨"Shop", "split", [⟨"a1", "i64"⟩, ⟨"parts", "i64"⟩], .anyone, false, false⟩
  implementation := ⟨"Shop", "split", [⟨"a1", "i64"⟩, ⟨"parts", "i64"⟩], .anyone, false, false⟩
  target := ⟨.object, .null⟩
  args := [.int 7, .int 2]
  caches := []
  result := .unset

theorem eval_parameter_crossed : crossedScope.implementation.paramNames.Nodup ∧
    (∀ n ∈ crossedScope.implementation.paramNames, n ∉ reserved) ∧
    eval crossedScope (.var "parts") = .ok (.int 2) ∧
    eval crossedScope (.var "a1") = .ok (.int 2) := by
  have hnames : crossedScope.implementation.paramNames.Nodup := by decide
  have hfree : ∀ n ∈ crossedScope.implementation.paramNames, n ∉ reserved := by decide
  have hparts := eval_parameter (i := 1) hnames hfree rfl rfl rfl
  have hfirst := eval_parameter (i := 0) hnames hfree rfl rfl rfl
  refine ⟨hnames, hfree, hparts.1 fun j hj hpos => ?_, ?_⟩
  · have hword : j < wordCount := Nat.lt_trans hj (by decide)
    have hnone : position? "parts" 2 = none := by decide
    cases hnone.symm.trans (position?_eq_some_iff.2 ⟨hpos, hj, hword⟩)
  · exact hfirst.2 1 (.int 2) (by decide) (positional_numbered (.inl rfl) 1) rfl

/-- The first argument is not reached by the name of its parameter. -/
theorem eval_parameter_hidden : crossedScope.method.varargs = false ∧
    crossedScope.implementation.paramNames.Nodup ∧
    (∀ n ∈ crossedScope.implementation.paramNames, n ∉ ["result", "root", "this"]) ∧
    crossedScope.args.length = crossedScope.implementation.params.length ∧
    crossedScope.implementation.paramNames[0]? = some "a1" ∧
    crossedScope.args[0]? = some (.int 7) ∧ eval crossedScope (.var "a1") ≠ .ok (.int 7) := by
  have hvalue : eval crossedScope (.var "a1") = .ok (.int 2) := rfl
  refine ⟨rfl, by decide, by decide, rfl, rfl, rfl, ?_⟩
  rw [hvalue]
  intro h
  cases h

end Expr

end CachedCalls
