import CachedCalls.Expr.Eval
import CachedCalls.Proofs.Expr.WatchedParse

set_option autoImplicit false

namespace CachedCalls.Expr

open CachedCalls.Watched

abbrev Evaluating := Watched ExprError

def watchedArgument (s : Scope) (i : Nat) : Evaluating Value := do
  let count := s.implementation.params.length
  if count < s.args.length then
    let last ← sub count 1
    if i = last then
      let rest ← slice s.args i s.args.length
      pure (.arr rest)
    else pure ((s.args[i]?).getD .null)
  else pure ((s.args[i]?).getD .null)

def watchedLookup (s : Scope) (n : String) : Evaluating Value :=
  if n = Scope.resultName then
    match s.result with
    | .available v => pure v
    | .unset => pure .null
    | .pending => fault (.notAvailable n)
  else if n = "root" ∨ n = "this" then pure s.root
  else
    match s.paramIndex? n with
    | some i => watchedArgument s i
    | none => pure .null

def watchedListMethod (vs : List Value) (n : String) (args : List Value) : Evaluating Value :=
  match n, args.length with
  | "size", 0 => pure (.ofNat vs.length)
  | "isEmpty", 0 => pure (.bool vs.isEmpty)
  | "contains", 1 => do
    let a ← item args 0
    pure (.bool (vs.any (valuesEqual · a)))
  | "get", 1 => do
    let a ← item args 0
    free (itemAt vs a)
  | _, _ => fault (.unknownMethod n "array")

def firstString (args : List Value) : Except ExprError String := stringOf (args[0]?.getD .null)

def watchedObjectMethod (fs : List (String × Value)) (n : String) (args : List Value) :
    Evaluating Value :=
  match n, args.length with
  | "size", 0 => pure (.ofNat fs.length)
  | "isEmpty", 0 => pure (.bool fs.isEmpty)
  | "containsKey", 1 => free ((firstString args).map fun k => .bool (Value.field? k fs).isSome)
  | "get", 1 => do
    let a ← item args 0
    free (indexInto (.obj fs) a)
  | _, _ => fault (.unknownMethod n "object")

def watchedMethod (v : Value) (n : String) (args : List Value) : Evaluating Value :=
  if n = "toString" ∧ args.isEmpty then pure (.str v.plain)
  else
    match v with
    | .str s => free (stringMethod s n args)
    | .arr vs => watchedListMethod vs n args
    | .obj fs => watchedObjectMethod fs n args
    | v => fault (.unknownMethod n v.kind)

def watchedBinary (op : BinaryOp) (a b : Value) : Evaluating Value :=
  match op with
  | .and => stop
  | .or => stop
  | op => free (applyBinary op a b)

mutual

def watchedEval (s : Scope) : Expr → Evaluating Value
  | .literal v => pure v
  | .var n => watchedLookup s n
  | .name n =>
    match s.rootProperty? n with
    | some v => pure v
    | none => fault (.unknownProperty n)
  | .property t n safe => do
    let v ← watchedEval s t
    if v.isNull then free (memberOfNull safe n) else free (memberOf v n)
  | .call t n as safe => do
    let v ← watchedEval s t
    if v.isNull then free (memberOfNull safe n)
    else
      let args ← watchedEvalAll s as
      watchedMethod v n args
  | .index t i => do
    let v ← watchedEval s t
    let i ← watchedEval s i
    free (indexInto v i)
  | .list es => do
    let vs ← watchedEvalAll s es
    pure (.arr vs)
  | .unary op e => do
    let v ← watchedEval s e
    free (applyUnary op v)
  | .binary .and l r => do
    let a ← watchedEval s l
    let p ← free (boolOf a)
    if p then
      let b ← watchedEval s r
      let q ← free (boolOf b)
      pure (.bool q)
    else pure (.bool false)
  | .binary .or l r => do
    let a ← watchedEval s l
    let p ← free (boolOf a)
    if p then pure (.bool true)
    else
      let b ← watchedEval s r
      let q ← free (boolOf b)
      pure (.bool q)
  | .binary op l r => do
    let a ← watchedEval s l
    let b ← watchedEval s r
    watchedBinary op a b
  | .ternary c y n => do
    let v ← watchedEval s c
    let p ← free (boolOf v)
    if p then watchedEval s y else watchedEval s n
  | .elvis v f => do
    let w ← watchedEval s v
    if isVoid w then watchedEval s f else pure w

def watchedEvalAll (s : Scope) : List Expr → Evaluating (List Value)
  | [] => pure []
  | e :: es => do
    let v ← watchedEval s e
    let vs ← watchedEvalAll s es
    pure (v :: vs)

end

theorem watchedListMethod_eq (vs : List Value) (n : String) (args : List Value) :
    watchedListMethod vs n args = free (listMethod vs n args) := by
  unfold listMethod
  split
  · rfl
  · rfl
  · rfl
  · rfl
  · next hsize hempty hcontains hget =>
    unfold watchedListMethod
    split
    · next h => exact absurd (List.length_eq_zero_iff.1 h) (hsize rfl)
    · next h => exact absurd (List.length_eq_zero_iff.1 h) (hempty rfl)
    · next h => exact absurd (List.length_eq_one_iff.1 h) fun ⟨a, ha⟩ => hcontains a rfl ha
    · next h => exact absurd (List.length_eq_one_iff.1 h) fun ⟨a, ha⟩ => hget a rfl ha
    · rfl

theorem watchedObjectMethod_eq (fs : List (String × Value)) (n : String) (args : List Value) :
    watchedObjectMethod fs n args = free (objectMethod fs n args) := by
  unfold objectMethod
  split
  · rfl
  · rfl
  · rfl
  · rfl
  · next hsize hempty hcontains hget =>
    unfold watchedObjectMethod
    split
    · next h => exact absurd (List.length_eq_zero_iff.1 h) (hsize rfl)
    · next h => exact absurd (List.length_eq_zero_iff.1 h) (hempty rfl)
    · next h => exact absurd (List.length_eq_one_iff.1 h) fun ⟨a, ha⟩ => hcontains a rfl ha
    · next h => exact absurd (List.length_eq_one_iff.1 h) fun ⟨a, ha⟩ => hget a rfl ha
    · rfl

theorem watchedMethod_eq (v : Value) (n : String) (args : List Value) :
    watchedMethod v n args = free (callMethod v n args) := by
  unfold watchedMethod callMethod
  split
  · rfl
  · cases v with
    | arr vs => exact watchedListMethod_eq vs n args
    | obj fs => exact watchedObjectMethod_eq fs n args
    | _ => rfl

theorem watchedArgument_eq (s : Scope) {i : Nat} (hi : i < s.implementation.params.length) :
    watchedArgument s i = .ok (s.argument i) := by
  unfold watchedArgument Scope.argument
  dsimp only
  split
  · next h =>
    rw [sub_of_le (by omega), ok_bind]
    by_cases hlast : i + 1 = s.implementation.params.length
    · rw [if_pos (by omega), if_pos ⟨h, hlast⟩, slice_of_le (by omega) (Nat.le_refl _), ok_bind,
        List.take_of_length_le (by rw [List.length_drop])]
      rfl
    · rw [if_neg (by omega), if_neg fun hand => hlast hand.2]
      rfl
  · next h =>
    rw [if_neg fun hand => h hand.1]
    rfl

theorem paramIndex?_lt {s : Scope} {n : String} {i : Nat} (h : s.paramIndex? n = some i) :
    i < s.implementation.params.length := by
  have hnames : s.implementation.paramNames.length = s.implementation.params.length :=
    List.length_map ..
  rw [← hnames]
  obtain hposition | ⟨-, hname⟩ := Option.or_eq_some_iff.1 h
  · exact (Scope.position?_eq_some_iff.1 hposition).2.1
  · exact (List.findIdx?_eq_some_iff_getElem.1 hname).1

theorem watchedLookup_eq (s : Scope) (n : String) : watchedLookup s n = free (s.lookup n) := by
  unfold watchedLookup Scope.lookup
  split
  · cases s.result <;> rfl
  · split
    · rfl
    · cases hi : s.paramIndex? n with
      | none => rfl
      | some i => exact watchedArgument_eq s (paramIndex?_lt hi)

mutual

theorem watchedEval_eq (s : Scope) (e : Expr) : watchedEval s e = free (eval s e) := by
  match e with
  | .literal v =>
    rw [watchedEval, eval]
    rfl
  | .var n =>
    rw [watchedEval, eval]
    exact watchedLookup_eq s n
  | .name n =>
    rw [watchedEval, eval]
    cases s.rootProperty? n <;> rfl
  | .property t n safe =>
    rw [watchedEval, eval, watchedEval_eq s t, free_bind]
    refine bind_congr fun v => ?_
    split <;> rfl
  | .call t n as safe =>
    rw [watchedEval, eval, watchedEval_eq s t, free_bind]
    refine bind_congr fun v => ?_
    split
    · rfl
    · rw [watchedEvalAll_eq s as, free_bind]
      exact bind_congr fun args => watchedMethod_eq v n args
  | .index t i =>
    rw [watchedEval, eval, watchedEval_eq s t, free_bind]
    refine bind_congr fun v => ?_
    rw [watchedEval_eq s i, free_bind]
  | .list es =>
    rw [watchedEval, eval, watchedEvalAll_eq s es, free_bind]
    rfl
  | .unary op e =>
    rw [watchedEval, eval, watchedEval_eq s e, free_bind]
  | .binary .and l r =>
    rw [watchedEval, eval, watchedEval_eq s l, free_bind]
    refine bind_congr fun a => ?_
    rw [free_bind]
    refine bind_congr fun p => ?_
    split
    · rw [watchedEval_eq s r, free_bind]
      refine bind_congr fun b => ?_
      rw [free_bind]
      rfl
    · rfl
  | .binary .or l r =>
    rw [watchedEval, eval, watchedEval_eq s l, free_bind]
    refine bind_congr fun a => ?_
    rw [free_bind]
    refine bind_congr fun p => ?_
    split
    · rfl
    · rw [watchedEval_eq s r, free_bind]
      refine bind_congr fun b => ?_
      rw [free_bind]
      rfl
  | .binary .eq l r | .binary .ne l r | .binary .lt l r | .binary .le l r | .binary .gt l r
  | .binary .ge l r | .binary .add l r | .binary .sub l r | .binary .mul l r | .binary .div l r
  | .binary .rem l r =>
    rw [watchedEval, eval, watchedEval_eq s l, free_bind]
    · refine bind_congr fun a => ?_
      rw [watchedEval_eq s r, free_bind]
      rfl
    all_goals exact nofun
  | .ternary c y n =>
    rw [watchedEval, eval, watchedEval_eq s c, free_bind]
    refine bind_congr fun v => ?_
    rw [free_bind]
    refine bind_congr fun p => ?_
    split
    · exact watchedEval_eq s y
    · exact watchedEval_eq s n
  | .elvis v f =>
    rw [watchedEval, eval, watchedEval_eq s v, free_bind]
    refine bind_congr fun w => ?_
    split
    · exact watchedEval_eq s f
    · rfl

theorem watchedEvalAll_eq (s : Scope) (es : List Expr) :
    watchedEvalAll s es = free (evalAll s es) := by
  match es with
  | [] =>
    rw [watchedEvalAll, evalAll]
    rfl
  | e :: es =>
    rw [watchedEvalAll, evalAll, watchedEval_eq s e, free_bind]
    refine bind_congr fun v => ?_
    rw [watchedEvalAll_eq s es, free_bind]
    rfl

end

/-- Parsing is not stopped on any text and evaluating not on any tree in any scope, so both come to
    what the plain functions give, a result or an error. Nor is a procedure of the parser stopped,
    from whatever token it is called at, so its calls need no bound. When it succeeds it has taken
    a token, unless it is a loop that may have nothing to go on with, and its cursor is still on the
    tokens. -/
theorem runs_free (s : String) :
    watchedScan s = free ((scan s).map fun ts => tapeOf ts s.toList.length) ∧
    (∀ {α : Type} (p : Procedure α) (ts : List Spot) (finish i : Nat), i ≤ ts.length →
      p.run (tapeOf ts finish) i =
        p.body (tapeOf ts finish) (fun q j => q.run (tapeOf ts finish) j) i ∧
      ∃ x : Except (Nat × SyntaxFault) (α × Nat), p.run (tapeOf ts finish) i = free x ∧
        ∀ a j, x = .ok (a, j) → i + p.least ≤ j ∧ j ≤ ts.length) ∧
    watchedParse s = free (parse s) ∧
    ∀ (c : Scope) (e : Expr), watchedEval c e = free (eval c e) :=
  ⟨watchedScan_eq s, fun p _ _ _ hi => ⟨p.run_eq hi, p.run_free hi⟩, watchedParse_eq s,
    watchedEval_eq⟩

theorem runs_free_plus :
    ∃ x : Except (Nat × SyntaxFault) (Expr × Nat),
      Procedure.unary.run
        (tapeOf [⟨.sign .plus, 0⟩, ⟨.sign .lparen, 1⟩, ⟨.int 2, 2⟩, ⟨.sign .rparen, 3⟩] 4) 0 = free x ∧
      ∀ a j, x = .ok (a, j) → 0 + 1 ≤ j ∧ j ≤ 4 :=
  ((runs_free "+(2)").2.1 .unary _ 4 0 (by decide)).2

end CachedCalls.Expr
