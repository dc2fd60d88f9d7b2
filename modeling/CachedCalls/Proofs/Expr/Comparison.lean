import CachedCalls.Proofs.Expr.Whole
import CachedCalls.Proofs.Number.Nearest

/-!
The relational operators. Two values are ordered in both directions or in none, and equality agrees
with the order. The order of words is that of the integers as long as both are signed; past that it
is the order of the floats next to them, which may be the same one.
-/

set_option autoImplicit false

namespace CachedCalls.Expr

open Number

/-- The test of the order of the operands that a relational operator makes. -/
def BinaryOp.test? : BinaryOp → Option (Ordering → Bool)
  | eq => some fun o => o == .eq
  | ne => some fun o => !(o == .eq)
  | lt => some fun o => o == .lt
  | le => some fun o => o == .lt || o == .eq
  | gt => some fun o => o == .gt
  | ge => some fun o => o == .gt || o == .eq
  | _ => none

/-- The relation of integers that a relational operator stands for. -/
def BinaryOp.relation? : BinaryOp → Option (Int → Int → Bool)
  | eq => some fun m n => decide (m = n)
  | ne => some fun m n => decide (m ≠ n)
  | lt => some fun m n => decide (m < n)
  | le => some fun m n => decide (m ≤ n)
  | gt => some fun m n => decide (m > n)
  | ge => some fun m n => decide (m ≥ n)
  | _ => none

def BinaryOp.orders : BinaryOp → Bool
  | lt => true
  | le => true
  | gt => true
  | ge => true
  | _ => false

/-- A number is a word or a finite float, as in JSON. -/
def isProper : Value → Bool
  | .int n => isWord n
  | .float x => x.isFinite
  | _ => true

section Numbers

def Num.order : Num → Num → Ordering
  | .int m, .int n => compare m n
  | m, n => compare (units m.toFloat) (units n.toFloat)

def Num.ofInt (n : Int) : Num := if isSigned n then .int n else .float (Float.ofInt n)

theorem Num.order_swap (m n : Num) : n.order m = (m.order n).swap := by
  cases m <;> cases n <;> exact (Int.compare_swap _ _).symm

theorem compare_beq (m n : Int) : (compare m n == .eq) = decide (m = n) := by
  rw [Bool.eq_iff_iff, beq_iff_eq, Int.compare_eq_eq, decide_eq_true_iff]

variable {a b : Value} {m n : Num}

theorem num?_int (k : Int) : num? (.int k) = .ok (.ofInt k) := by
  cases hk : isSigned k <;> simp only [num?, signedOf?, Num.ofInt, hk] <;> rfl

theorem toFloat_ofInt (k : Int) : (Num.ofInt k).toFloat = Float.ofInt k := by
  cases hk : isSigned k <;> simp only [Num.ofInt, hk] <;> rfl

theorem num?_proper (hnumber : isNumber a = true) (hproper : isProper a = true) :
    ∃ m, num? a = .ok m ∧ m.toFloat.isFinite = true := by
  cases a with
  | int k => exact ⟨_, num?_int k, by rw [toFloat_ofInt]; exact (ofInt_nearest hproper).1⟩
  | float x => exact ⟨_, rfl, hproper⟩
  | _ => cases hnumber

theorem num?_cases (h : num? a = .ok m) : floatOf? a = some m.toFloat ∧
    ((∃ k, m = .int k ∧ signedOf? a = some k) ∨ ∃ x, m = .float x ∧ signedOf? a = none) := by
  cases a with
  | int k =>
    cases (num?_int k).symm.trans h
    rw [toFloat_ofInt]
    by_cases hk : isSigned k = true
    · exact ⟨rfl, .inl ⟨k, if_pos hk, if_pos hk⟩⟩
    · exact ⟨rfl, .inr ⟨_, if_neg hk, if_neg hk⟩⟩
  | float x =>
    cases h
    exact ⟨rfl, .inr ⟨x, rfl, rfl⟩⟩
  | _ => cases h

theorem compareFloats?_eq {x y : Float} (hx : x.isFinite = true) (hy : y.isFinite = true) :
    compareFloats? x y = some (compare (units x) (units y)) := by
  simp only [compareFloats?, lt_iff_units hx hy, lt_iff_units hy hx, beq_eq_units hx hy,
    decide_eq_true_iff]
  obtain h | h | h := Int.lt_trichotomy (units x) (units y)
  · rw [if_pos h, Int.compare_eq_lt.2 h]
  · rw [if_neg h.not_lt, if_pos h, Int.compare_eq_eq.2 h]
  · rw [if_neg h.not_gt, if_neg h.ne', if_pos h, Int.compare_eq_gt.2 h]

variable (hm : m.toFloat.isFinite = true) (hn : n.toFloat.isFinite = true)

include hm hn

theorem compareNums_eq (v : Value) : compareNums v m n = .ok (m.order n) := by
  have hfloats := compareFloats?_eq hm hn
  cases m with
  | int k =>
    cases n with
    | int l => rfl
    | float y => simp only [compareNums, hfloats, Num.order]
  | float x => simp only [compareNums, hfloats, Num.order]

variable (ha : num? a = .ok m) (hb : num? b = .ok n)

include ha hb

theorem compareValues_numbers : compareValues a b = .ok (m.order n) := by
  rw [← compareNums_eq hm hn a]
  cases a with
  | int | float =>
    cases b with
    | int | float => simp only [compareValues, isNumber, ha, hb, Bool.and_self, if_true]
    | _ => cases hb
  | _ => cases ha

theorem valuesEqual_numbers : valuesEqual a b = (m.order n == .eq) := by
  obtain ⟨hx, ⟨k, rfl, hk⟩ | ⟨x, rfl, hk⟩⟩ := num?_cases ha
  · obtain ⟨hy, ⟨l, rfl, hl⟩ | ⟨y, rfl, hl⟩⟩ := num?_cases hb
    · simp only [valuesEqual, hk, hl, Num.order, compare_beq]
    · simp only [valuesEqual, hk, hl, hx, hy, Num.order, beq_eq_units hm hn, compare_beq]
  · obtain ⟨hy, -⟩ := num?_cases hb
    simp only [valuesEqual, hk, hx, hy, Num.order, beq_eq_units hm hn, compare_beq]

end Numbers

section Values

variable {a b : Value}

theorem valuesEqual_null (ha : isNumber a = true) : valuesEqual a .null = false := by
  cases a with
  | int n => cases hn : isSigned n <;> simp only [valuesEqual, signedOf?, hn] <;> rfl
  | float x => rfl
  | _ => cases ha

theorem compareStrings_eq (s t : String) : compareStrings s t = compare s t := rfl

theorem compareStrings_swap (s t : String) : compareStrings t s = (compareStrings s t).swap := by
  rw [compareStrings_eq, compareStrings_eq]
  exact Std.OrientedCmp.eq_swap

theorem compareStrings_beq (s t : String) : (compareStrings s t == .eq) = decide (s = t) := by
  rw [Bool.eq_iff_iff, beq_iff_eq, decide_eq_true_iff, compareStrings_eq, Std.compare_eq_iff_eq]

theorem compareBools_swap (p q : Bool) : compareBools q p = (compareBools p q).swap := by
  cases p <;> cases q <;> rfl

theorem compareBools_beq (p q : Bool) : (compareBools p q == .eq) = decide (p = q) := by
  cases p <;> cases q <;> rfl

theorem compareValues_cases (ha : isProper a = true) (hb : isProper b = true) :
    ((∃ e, compareValues a b = .error e) ∧ ∃ e, compareValues b a = .error e) ∨
      ∃ o, compareValues a b = .ok o ∧ compareValues b a = .ok o.swap ∧
        valuesEqual a b = (o == .eq) := by
  cases a with
  | null =>
    cases b with
    | null => exact .inr ⟨.eq, rfl, rfl, rfl⟩
    | _ => exact .inr ⟨.lt, rfl, rfl, rfl⟩
  | bool p =>
    cases b with
    | null => exact .inr ⟨.gt, rfl, rfl, rfl⟩
    | bool q =>
      exact .inr ⟨_, rfl, congrArg Except.ok (compareBools_swap p q), (compareBools_beq p q).symm⟩
    | _ => exact .inl ⟨⟨_, rfl⟩, _, rfl⟩
  | str s =>
    cases b with
    | null => exact .inr ⟨.gt, rfl, rfl, rfl⟩
    | str t =>
      exact .inr ⟨_, rfl, congrArg Except.ok (compareStrings_swap s t), (compareStrings_beq s t).symm⟩
    | _ => exact .inl ⟨⟨_, rfl⟩, _, rfl⟩
  | int | float =>
    cases b with
    | null => exact .inr ⟨.gt, rfl, rfl, valuesEqual_null rfl⟩
    | int | float =>
      obtain ⟨m, hm, hx⟩ := num?_proper rfl ha
      obtain ⟨n, hn, hy⟩ := num?_proper rfl hb
      exact .inr ⟨m.order n, compareValues_numbers hx hy hm hn,
        (compareValues_numbers hy hx hn hm).trans (congrArg Except.ok (m.order_swap n)),
        valuesEqual_numbers hx hy hm hn⟩
    | _ => exact .inl ⟨⟨_, rfl⟩, _, rfl⟩
  | arr | obj =>
    cases b with
    | null => exact .inr ⟨.gt, rfl, rfl, rfl⟩
    | _ => exact .inl ⟨⟨_, rfl⟩, _, rfl⟩

theorem valuesEqual_of_order (ha : isProper a = true) (hb : isProper b = true) {o : Ordering}
    (h : compareValues a b = .ok o) : valuesEqual a b = (o == .eq) := by
  obtain ⟨⟨e, he⟩, -⟩ | ⟨p, hp, -, hequal⟩ := compareValues_cases ha hb
  · cases he.symm.trans h
  · cases hp.symm.trans h
    exact hequal

end Values

/-- Two words are told apart when both are signed or the floats next to them are two. In one word
    there is nothing to tell apart. -/
def ToldApart (m n : Int) : Prop :=
  (isSigned m = true ∧ isSigned n = true) ∨ m = n ∨ nearestWhole m ≠ nearestWhole n

def wordOrder (m n : Int) : Ordering :=
  if isSigned m && isSigned n then compare m n else compare (nearestWhole m) (nearestWhole n)

section Words

variable {m n : Int}

theorem wordOrder_apart (h : ToldApart m n) : wordOrder m n = compare m n := by
  unfold wordOrder
  split
  · rfl
  · next hsigned =>
    obtain ⟨hm, hn⟩ | rfl | hne := h
    · exact absurd (Bool.and_eq_true_iff.2 ⟨hm, hn⟩) hsigned
    · rw [Int.compare_eq_eq.2 rfl, Int.compare_eq_eq.2 rfl]
    · -- Rounding does not turn an order around, so the floats can only be one.
      obtain hlt | rfl | hgt := Int.lt_trichotomy m n
      · rw [Int.compare_eq_lt.2 hlt, Int.compare_eq_lt.2 ((nearestWhole_mono hlt.le).lt_of_ne hne)]
      · exact absurd rfl hne
      · rw [Int.compare_eq_gt.2 hgt,
          Int.compare_eq_gt.2 ((nearestWhole_mono hgt.le).lt_of_ne hne.symm)]

theorem wordOrder_alike (h : ¬ ToldApart m n) : wordOrder m n = .eq := by
  simp only [ToldApart, not_or, not_and, ne_eq, Decidable.not_not] at h
  obtain ⟨hsigned, -, hone⟩ := h
  unfold wordOrder
  split
  · next hboth =>
    obtain ⟨hm, hn⟩ := Bool.and_eq_true_iff.1 hboth
    exact absurd hn (hsigned hm)
  · exact Int.compare_eq_eq.2 hone

variable (hm : isWord m = true) (hn : isWord n = true)

include hm hn

theorem order_ofInt : (Num.ofInt m).order (Num.ofInt n) = wordOrder m n := by
  have hfloats := compare_ofInt hm hn
  cases hsm : isSigned m <;> cases hsn : isSigned n <;>
    simp only [Num.ofInt, Num.order, Num.toFloat, wordOrder, hsm, hsn, hfloats, Bool.and_true,
      Bool.and_false, if_true, Bool.false_eq_true, if_false]

theorem compareValues_words : compareValues (.int m) (.int n) = .ok (wordOrder m n) ∧
    valuesEqual (.int m) (.int n) = (wordOrder m n == .eq) := by
  have hx : (Num.ofInt m).toFloat.isFinite = true := toFloat_ofInt m ▸ (ofInt_nearest hm).1
  have hy : (Num.ofInt n).toFloat.isFinite = true := toFloat_ofInt n ▸ (ofInt_nearest hn).1
  rw [← order_ofInt hm hn]
  exact ⟨compareValues_numbers hx hy (num?_int m) (num?_int n),
    valuesEqual_numbers hx hy (num?_int m) (num?_int n)⟩

end Words

section Evaluation

variable {s : Scope} {l r : Expr} {a b : Value}

section Tests

variable {op : BinaryOp} {t : Ordering → Bool} (ht : op.test? = some t)

include ht

theorem eval_relational (hl : eval s l = .ok a) (hr : eval s r = .ok b) :
    eval s (.binary op l r) = applyBinary op a b := by
  have hop : eval s (.binary op l r) =
      (eval s l).bind fun a => (eval s r).bind fun b => applyBinary op a b := by
    cases op <;> first | rfl | cases ht
  rw [hop, hl, hr]
  rfl

theorem applyBinary_test {o : Ordering} (horder : compareValues a b = .ok o)
    (hequal : valuesEqual a b = (o == .eq)) : applyBinary op a b = .ok (.bool (t o)) := by
  cases op with
  | eq | ne =>
    cases ht
    rw [applyBinary, hequal]
  | lt | le | gt | ge =>
    cases ht
    rw [applyBinary, ordered, horder]
    cases o <;> rfl
  | _ => cases ht

end Tests

theorem BinaryOp.test?_of_orders {op : BinaryOp} (h : op.orders = true) : ∃ t, op.test? = some t := by
  cases op <;> first | exact ⟨_, rfl⟩ | cases h

theorem applyBinary_unordered {op : BinaryOp} {e : ExprError} (h : op.orders = true)
    (horder : compareValues a b = .error e) : applyBinary op a b = .error e := by
  cases op with
  | lt | le | gt | ge =>
    rw [applyBinary, ordered, horder]
    rfl
  | _ => cases h

/-- The equality of two values and their order are one: if there is no order, then there is none
    in the other direction either, and if there is, then the six operators test it alone, and with
    the operands exchanged they test the opposite order. -/
theorem eval_relations {s : Scope} {l r : Expr} {a b : Value} (hl : eval s l = .ok a)
    (hr : eval s r = .ok b) (ha : isProper a = true) (hb : isProper b = true) :
    (∃ p, eval s (.binary .eq l r) = .ok (.bool p) ∧ eval s (.binary .ne l r) = .ok (.bool !p)) ∧
      ((∀ op, op.orders = true → (∃ e, eval s (.binary op l r) = .error e) ∧
          ∃ e, eval s (.binary op r l) = .error e) ∨
        ∃ o, ∀ op t, op.test? = some t → eval s (.binary op l r) = .ok (.bool (t o)) ∧
          eval s (.binary op r l) = .ok (.bool (t o.swap))) := by
  refine ⟨⟨valuesEqual a b, eval_relational rfl hl hr, eval_relational rfl hl hr⟩, ?_⟩
  obtain ⟨⟨e, he⟩, f, hf⟩ | ⟨o, horder, hswap, hequal⟩ := compareValues_cases ha hb
  · refine .inl fun op hop => ?_
    obtain ⟨t, ht⟩ := BinaryOp.test?_of_orders hop
    rw [eval_relational ht hl hr, eval_relational ht hr hl]
    exact ⟨⟨e, applyBinary_unordered hop he⟩, f, applyBinary_unordered hop hf⟩
  · refine .inr ⟨o, fun op t ht => ?_⟩
    rw [eval_relational ht hl hr, eval_relational ht hr hl]
    exact ⟨applyBinary_test ht horder hequal,
      applyBinary_test ht hswap (valuesEqual_of_order hb ha hswap)⟩

theorem eval_relations_mixed :
    eval (splitScope 0x8000000000000001 0) (.var "total") = .ok (.int 0x8000000000000001) ∧
      ∃ o, ∀ op t, op.test? = some t →
        eval (splitScope 0x8000000000000001 0)
            (.binary op (.var "total") (.literal (.float 9223372036854775808.0))) = .ok (.bool (t o)) ∧
          eval (splitScope 0x8000000000000001 0)
            (.binary op (.literal (.float 9223372036854775808.0)) (.var "total")) =
              .ok (.bool (t o.swap)) := by
  have htotal : eval (splitScope 0x8000000000000001 0) (.var "total") =
      .ok (.int 0x8000000000000001) := rfl
  obtain ⟨-, hnone | hsome⟩ := eval_relations (r := .literal (.float 9223372036854775808.0)) htotal
    rfl (by decide) (by decide +kernel)
  · obtain ⟨⟨e, he⟩, -⟩ := hnone .lt rfl
    have hlt : eval (splitScope 0x8000000000000001 0)
        (.binary .lt (.var "total") (.literal (.float 9223372036854775808.0))) = .ok (.bool false) := by
      decide +kernel
    cases hlt.symm.trans he
  · exact ⟨htotal, hsome⟩

theorem BinaryOp.test?_of_relation {op : BinaryOp} {rel : Int → Int → Bool}
    (h : op.relation? = some rel) : ∃ t, op.test? = some t ∧ ∀ m n, t (compare m n) = rel m n := by
  have hlt (m n : Int) : (compare m n == .lt) = decide (m < n) := by
    rw [Bool.eq_iff_iff, beq_iff_eq, Int.compare_eq_lt, decide_eq_true_iff]
  have hgt (m n : Int) : (compare m n == .gt) = decide (m > n) := by
    rw [Bool.eq_iff_iff, beq_iff_eq, Int.compare_eq_gt, decide_eq_true_iff]
  cases op with
  | eq =>
    cases h
    exact ⟨_, rfl, compare_beq⟩
  | ne =>
    cases h
    exact ⟨_, rfl, fun m n => by rw [compare_beq, ← decide_not]⟩
  | lt =>
    cases h
    exact ⟨_, rfl, hlt⟩
  | le =>
    cases h
    refine ⟨_, rfl, fun m n => ?_⟩
    rw [hlt, compare_beq, ← Bool.decide_or]
    exact decide_eq_decide.2 Int.le_iff_lt_or_eq.symm
  | gt =>
    cases h
    exact ⟨_, rfl, hgt⟩
  | ge =>
    cases h
    refine ⟨_, rfl, fun m n => ?_⟩
    rw [hgt, compare_beq, ← Bool.decide_or]
    exact decide_eq_decide.2 (by omega)
  | _ => cases h

theorem eval_contains {s : Scope} {c r : Expr} {vs : List Value} {a : Value}
    (hc : eval s c = .ok (.arr vs)) (hr : eval s r = .ok a) (safe : Bool) :
    eval s (.call c "contains" [r] safe) = .ok (.bool (vs.any (valuesEqual · a))) := by
  simp only [eval, evalAll, hc, hr]
  rfl

theorem valuesEqual_other {v : Value} {n : Int} (hv : isNumber v = false) :
    valuesEqual v (.int n) = decide (v = .int n) := by
  cases v with
  | int | float => cases hv
  | _ => rfl

theorem valuesEqual_item {v : Value} {n : Int} (hn : isWord n = true) (hfloat : ∀ x, v ≠ .float x)
    (h : ∀ k, v = .int k → isWord k = true ∧ ToldApart k n) :
    valuesEqual v (.int n) = decide (v = .int n) := by
  cases v with
  | int k =>
    obtain ⟨hk, hapart⟩ := h k rfl
    rw [(compareValues_words hk hn).2, wordOrder_apart hapart, compare_beq]
    simp only [Value.int.injEq]
  | float x => exact absurd rfl (hfloat x)
  | _ => exact valuesEqual_other rfl

theorem any_valuesEqual {vs : List Value} {n : Int} (hn : isWord n = true)
    (hfloat : ∀ x, .float x ∉ vs) (h : ∀ k, .int k ∈ vs → isWord k = true ∧ ToldApart k n) :
    vs.any (valuesEqual · (.int n)) = decide (.int n ∈ vs) := by
  have hitem (v : Value) (hv : v ∈ vs) : valuesEqual v (.int n) = true ↔ v = .int n := by
    rw [valuesEqual_item hn (fun x hx => hfloat x (hx ▸ hv)) fun k hk => h k (hk ▸ hv),
      decide_eq_true_iff]
  rw [Bool.eq_iff_iff, List.any_eq_true, decide_eq_true_iff]
  constructor
  · rintro ⟨v, hv, hequal⟩
    exact (hitem v hv).1 hequal ▸ hv
  · exact fun hv => ⟨_, hv, (hitem _ hv).2 rfl⟩

/-- Of words that are told apart the relational operators are the relations of the integers, and a
    list whose integers are told apart from a word contains it exactly if it is one of them. Words
    that are not told apart are one word to every operator. -/
theorem eval_words {s : Scope} {l r : Expr} {m n : Int} (hl : eval s l = .ok (.int m))
    (hr : eval s r = .ok (.int n)) (hm : isWord m = true) (hn : isWord n = true) :
    (∀ op rel, op.relation? = some rel →
      (ToldApart m n → eval s (.binary op l r) = .ok (.bool (rel m n))) ∧
        (¬ ToldApart m n → eval s (.binary op l r) = .ok (.bool (rel n n)))) ∧
      ∀ c vs safe, eval s c = .ok (.arr vs) → (∀ x, .float x ∉ vs) →
        (∀ k, .int k ∈ vs → isWord k = true ∧ ToldApart k n) →
          eval s (.call c "contains" [r] safe) = .ok (.bool (decide (.int n ∈ vs))) := by
  obtain ⟨horder, hequal⟩ := compareValues_words hm hn
  refine ⟨fun op rel hop => ?_, fun c vs safe hc hfloat hvs => ?_⟩
  · obtain ⟨t, ht, hrel⟩ := BinaryOp.test?_of_relation hop
    rw [eval_relational ht hl hr, applyBinary_test ht horder hequal]
    refine ⟨fun hapart => ?_, fun halike => ?_⟩
    · rw [wordOrder_apart hapart, hrel]
    · rw [wordOrder_alike halike, ← hrel, Int.compare_eq_eq.2 rfl]
  · rw [eval_contains hc hr, any_valuesEqual hn hfloat hvs]

theorem eval_words_past :
    eval (splitScope 0x8000000000000000 (-1)) (.var "total") = .ok (.int 0x8000000000000000) ∧
      eval (splitScope 0x8000000000000000 (-1)) (.var "parts") = .ok (.int (-1)) ∧
      eval (splitScope 0x8000000000000000 (-1)) (.binary .ge (.var "total") (.var "parts")) =
        .ok (.bool true) ∧
      eval (splitScope 0x8000000000000000 (-1))
          (.call (.list [.var "total"]) "contains" [.var "parts"] false) = .ok (.bool false) := by
  have htotal : eval (splitScope 0x8000000000000000 (-1)) (.var "total") =
      .ok (.int 0x8000000000000000) := rfl
  have hparts : eval (splitScope 0x8000000000000000 (-1)) (.var "parts") = .ok (.int (-1)) := rfl
  have hapart : ToldApart 0x8000000000000000 (-1) := .inr (.inr (by decide))
  obtain ⟨hrel, hlist⟩ := eval_words htotal hparts (by decide) (by decide)
  refine ⟨htotal, hparts, (hrel .ge _ rfl).1 hapart, ?_⟩
  refine hlist (.list [.var "total"]) [.int 0x8000000000000000] false rfl (by simp) fun k hk => ?_
  obtain rfl : k = 0x8000000000000000 := by simpa using hk
  exact ⟨by decide, hapart⟩

/-- Two integers with one float next to them are one to the operators. -/
theorem eval_words_alike :
    eval (splitScope 0x8000000000000000 0x8000000000000001) (.var "total") =
        .ok (.int 0x8000000000000000) ∧
      eval (splitScope 0x8000000000000000 0x8000000000000001) (.var "parts") =
        .ok (.int 0x8000000000000001) ∧
      isWord 0x8000000000000000 = true ∧ isWord 0x8000000000000001 = true ∧
      eval (splitScope 0x8000000000000000 0x8000000000000001)
          (.binary .eq (.var "total") (.var "parts")) =
        .ok (.bool true) ∧
      eval (splitScope 0x8000000000000000 0x8000000000000001)
          (.binary .lt (.var "total") (.var "parts")) =
        .ok (.bool false) := by
  refine ⟨rfl, rfl, rfl, rfl, ?_, ?_⟩
  all_goals decide +kernel

end Evaluation

end CachedCalls.Expr
