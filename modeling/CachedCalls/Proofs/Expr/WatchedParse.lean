import CachedCalls.Proofs.Expr.Faults
import CachedCalls.Proofs.Expr.Procedures

set_option autoImplicit false

namespace CachedCalls.Expr

open CachedCalls.Watched

section Suffixes

variable {α β : Type} {ts r : List Spot} {finish : Nat}

def cursorOf (ts r : List Spot) : Nat := ts.length - r.length

def beginning (finish : Nat) (r : List Spot) : Nat := (r.head?.map (·.position)).getD finish

theorem length_tapeOf : (tapeOf ts finish).length = ts.length + 1 := by
  simp [tapeOf]

theorem peek_eq (hr : r <:+ ts) :
    peek (tapeOf ts finish) (cursorOf ts r) = .ok (front r, beginning finish r) := by
  obtain ⟨vs, rfl⟩ := hr
  have hcursor : cursorOf (vs ++ r) r = vs.length := by simp [cursorOf]
  have hdrop : (tapeOf (vs ++ r) finish).drop vs.length = tapeOf r finish := by
    simp [tapeOf]
  have hlast : (tapeOf (vs ++ r) finish).length - 1 = vs.length + r.length := by
    simp [length_tapeOf]
  rw [peek, sub_of_le (by simp [length_tapeOf]), ok_bind, hcursor, hlast,
    require_of (Nat.le_add_right _ _), ok_bind, Nat.min_eq_left (Nat.le_add_right _ _)]
  cases r <;> exact item_of_drop hdrop

theorem advance_eq (hr : r <:+ ts) :
    advance (tapeOf ts finish) (cursorOf ts r) = .ok (front r, cursorOf ts r.tail) := by
  have hle := hr.length_le
  have hnext : (if cursorOf ts r < (tapeOf ts finish).length - 1 then cursorOf ts r + 1
      else cursorOf ts r) = cursorOf ts r.tail := by
    rw [length_tapeOf, cursorOf, cursorOf, List.length_tail]
    split <;> omega
  rw [advance, peek_eq hr, ok_bind, sub_of_le (by simp [length_tapeOf])]
  exact congrArg (fun i => Except.ok (front r, i)) hnext

theorem eat_eq {s : Sign} (hr : r <:+ ts) : eat (tapeOf ts finish) s (cursorOf ts r) =
    .ok (if front r = some (.sign s) then (true, cursorOf ts r.tail) else (false, cursorOf ts r)) := by
  rw [eat, peek_eq hr, ok_bind]
  dsimp only
  split
  · rw [advance_eq hr]
    rfl
  · rfl

/-- The watched reading comes to what the plain one does, with fewer than `n` spots left. -/
def Mirrors (ts : List Spot) (finish n : Nat) (w : Scanning (α × Nat))
    (x : Reading (α × List Spot)) : Prop :=
  (∀ a r, x = .ok (a, r) → w = .ok (a, cursorOf ts r) ∧ r <:+ ts ∧ r.length < n) ∧
    ∀ f, x = .error f → w = fault (f.position.getD finish, f.cause)

namespace Mirrors

variable {n : Nat}

theorem done {a : α} (hr : r <:+ ts) (h : r.length < n) :
    Mirrors ts finish n (pure (a, cursorOf ts r)) (.ok (a, r)) := by
  refine ⟨?_, fun f hf => by cases hf⟩
  rintro _ _ ⟨⟩
  exact ⟨rfl, hr, h⟩

theorem fault {c : SyntaxFault} : Mirrors ts finish n
    (Watched.fault (beginning finish r, c) : Scanning (α × Nat)) (faultAt r c) := by
  refine ⟨nofun, ?_⟩
  rintro _ ⟨⟩
  rfl

theorem mono {m : Nat} {w : Scanning (α × Nat)} {x : Reading (α × List Spot)}
    (h : Mirrors ts finish m w x) (hmn : m ≤ n) : Mirrors ts finish n w x := by
  refine ⟨fun a r hr => ?_, h.2⟩
  obtain ⟨hw, hsuffix, hlen⟩ := h.1 a r hr
  exact ⟨hw, hsuffix, Nat.lt_of_lt_of_le hlen hmn⟩

theorem bind {m : Nat} {w : Scanning (α × Nat)} {x : Reading (α × List Spot)}
    {g : α × Nat → Scanning (β × Nat)} {f : α × List Spot → Reading (β × List Spot)}
    (h : Mirrors ts finish m w x)
    (hf : ∀ a r, r <:+ ts → r.length < m →
      Mirrors ts finish n (g (a, cursorOf ts r)) (f (a, r))) :
    Mirrors ts finish n (w >>= g) (x >>= f) := by
  cases x with
  | error e =>
    rw [h.2 e rfl]
    refine ⟨nofun, ?_⟩
    rintro _ ⟨⟩
    rfl
  | ok y =>
    obtain ⟨hw, hsuffix, hlen⟩ := h.1 y.1 y.2 rfl
    rw [hw]
    exact hf y.1 y.2 hsuffix hlen

theorem eat {s : Sign} {g : Bool × Nat → Scanning (α × Nat)} {x y : Reading (α × List Spot)}
    (hr : r <:+ ts)
    (hyes : r.tail <:+ ts → r.tail.length + 1 = r.length →
      Mirrors ts finish n (g (true, cursorOf ts r.tail)) x)
    (hno : Mirrors ts finish n (g (false, cursorOf ts r)) y) :
    Mirrors ts finish n (eat (tapeOf ts finish) s (cursorOf ts r) >>= g)
      (if front r = some (.sign s) then x else y) := by
  rw [eat_eq hr, ok_bind]
  split
  · next h => exact hyes ((List.tail_suffix r).trans hr) (tail_of_front h)
  · exact hno

theorem expect {s : Sign} {g : Nat → Scanning (α × Nat)}
    {f : List Spot → Reading (α × List Spot)} (hr : r <:+ ts)
    (hf : r.tail <:+ ts → r.tail.length + 1 = r.length →
      Mirrors ts finish n (g (cursorOf ts r.tail)) (f r.tail)) :
    Mirrors ts finish n (expectSign (tapeOf ts finish) s (cursorOf ts r) >>= g)
      (expect s r >>= f) := by
  unfold expectSign Expr.expect
  rw [eat_eq hr, ok_bind]
  by_cases h : front r = some (.sign s)
  · rw [if_pos h, if_pos h]
    exact hf ((List.tail_suffix r).trans hr) (tail_of_front h)
  · rw [if_neg h, if_neg h]
    change Mirrors ts finish n ((peek (tapeOf ts finish) (cursorOf ts r) >>= _) >>= g) _
    rw [peek_eq hr]
    exact fault

theorem name (hr : r <:+ ts) :
    Mirrors ts finish r.length (nameAt (tapeOf ts finish) (cursorOf ts r)) (memberName r) := by
  have htail : r.tail <:+ ts := (List.tail_suffix r).trans hr
  have hother : Mirrors ts finish r.length
      (peek (tapeOf ts finish) (cursorOf ts r.tail) >>= fun x =>
        (Watched.fault (x.2, .expectedName (front r)) : Scanning (String × Nat)))
      (faultAt r.tail (.expectedName (front r))) := by
    rw [peek_eq htail]
    exact fault
  rw [nameAt, advance_eq hr, ok_bind]
  cases r with
  | nil => exact hother
  | cons s r =>
    obtain ⟨t, p⟩ := s
    cases t with
    | name n => exact done htail (Nat.lt_succ_self _)
    | _ => exact hother

theorem unique {w v : Scanning (α × Nat)} {x : Reading (α × List Spot)}
    (hw : Mirrors ts finish n w x) (hv : Mirrors ts finish n v x) : w = v := by
  cases x with
  | error f => rw [hw.2 f rfl, hv.2 f rfl]
  | ok y => rw [(hw.1 y.1 y.2 rfl).1, (hv.1 y.1 y.2 rfl).1]

theorem shift {s : Token} {g : Option Token × Nat → Scanning (α × Nat)}
    {x : Reading (α × List Spot)} (hr : r <:+ ts) (h : front r = some s)
    (hg : r.tail <:+ ts → r.tail.length + 1 = r.length →
      Mirrors ts finish n (g (some s, cursorOf ts r.tail)) x) :
    Mirrors ts finish n (advance (tapeOf ts finish) (cursorOf ts r) >>= g) x := by
  rw [advance_eq hr, h]
  exact hg ((List.tail_suffix r).trans hr) (tail_of_front h)

end Mirrors

namespace Procedure

def read : {α : Type} → Procedure α → Nat → List Spot → Reading (α × List Spot)
  | _, expression, d, r => readExpression d r
  | _, level l, d, r => readLevel d l r
  | _, levelLoop l left, d, r => joinRest d l left r
  | _, unary, d, r => readUnary d r
  | _, postfix_, d, r => do
    let (e, r) ← readPrimary d r
    readMembers d e r
  | _, postfixLoop e, d, r => readMembers d e r
  | _, primary, d, r => readPrimary d r
  | _, arguments close, d, r => readArguments d close r
  | _, argumentsLoop close, d, r => readArgumentsRest d close r

/-- The tokens that a procedure takes at least. A loop may have nothing to go on with, except that
    every round of arguments has one. -/
def least : Procedure α → Nat
  | levelLoop _ _ => 0
  | postfixLoop _ => 0
  | _ => 1

def limit (p : Procedure α) (n : Nat) : Nat := n + 1 - p.least

theorem limit_le (p : Procedure α) (n : Nat) : p.limit n ≤ n + 1 := Nat.sub_le (n + 1) _

/-- Whatever `p` may call where `r` is left, mirrors the plain parser if that may go deep enough. -/
def CallsFrom (ts : List Spot) (finish : Nat) (p : Procedure α) (r : List Spot) (call : Calls) :
    Prop :=
  ∀ {β : Type} (q : Procedure β) (u : List Spot) (d : Nat), u <:+ ts →
    u.length < r.length ∨ u.length = r.length ∧ q.rank < p.rank → 20 * u.length + q.rank < d →
    Mirrors ts finish (q.limit u.length) (call q (cursorOf ts u)) (q.read d u)

variable {call : Calls} {d : Nat}

theorem rank_le (p : Procedure α) : p.rank ≤ 15 := by
  cases p with
  | level l => exact Nat.le_trans (Nat.mul_le_mul_left 2 l.looseness_bounds.2) (by decide)
  | _ => simp only [rank]; omega

theorem CallsFrom.same {p : Procedure α} (h : CallsFrom ts finish p r call) (q : Procedure β)
    (hr : r <:+ ts) (hrank : q.rank < p.rank) (hd : 20 * r.length + q.rank < d) :
    Mirrors ts finish (q.limit r.length) (call q (cursorOf ts r)) (q.read d r) :=
  h q r d hr (.inr ⟨rfl, hrank⟩) hd

theorem CallsFrom.later {p : Procedure α} (h : CallsFrom ts finish p r call) (q : Procedure β)
    {u : List Spot} (hu : u <:+ ts) (hlen : u.length < r.length) (hd : 20 * u.length + 16 ≤ d) :
    Mirrors ts finish (q.limit u.length) (call q (cursorOf ts u)) (q.read d u) :=
  h q u d hu (.inl hlen) (by have := q.rank_le; omega)

theorem CallsFrom.last {p : Procedure α} (h : CallsFrom ts finish p r call) (q : Procedure β)
    {u : List Spot} {n : Nat} (hu : u <:+ ts) (hlen : u.length < r.length) (hn : u.length < n)
    (hd : 20 * u.length + 16 ≤ d) : Mirrors ts finish n (call q (cursorOf ts u)) (q.read d u) :=
  (h.later q hu hlen hd).mono (Nat.le_trans (q.limit_le u.length) hn)

theorem expression_mirrors (hr : r <:+ ts) (hcall : CallsFrom ts finish expression r call)
    (hd : 20 * r.length + 13 < d) : Mirrors ts finish r.length
      (expression.body (tapeOf ts finish) call (cursorOf ts r)) (readExpression d r) := by
  match d with
  | 0 => omega
  | d + 1 =>
    rw [readExpression, body]
    refine (hcall.same (.level .or) hr (by decide) (by change 20 * r.length + 12 < d; omega)).bind
      fun c u hu (hc : u.length < r.length) => ?_
    refine .eat hu (fun hy hlen => ?_) (.eat hu (fun hf hlen => ?_) (.done hu hc))
    · refine (hcall.later .expression hy (by omega) (by omega)).bind
        fun y v hv (hy : v.length < u.tail.length) => .expect hv fun hn hlen => ?_
      refine (hcall.later .expression hn (by omega) (by omega)).bind
        fun n w hw (hn : w.length < v.tail.length) => ?_
      exact .done hw (by omega)
    · refine (hcall.later .expression hf (by omega) (by omega)).bind
        fun f v hv (hf : v.length < u.tail.length) => ?_
      exact .done hv (by omega)

theorem readOperand_eq (d : Nat) (l : Level) (r : List Spot) :
    readOperand (d + 1) l r = l.operands.read d r := by
  cases l <;> rfl

theorem operands_rank (l : Level) : l.operands.rank + 2 ≤ 2 * l.looseness := by
  cases l <;> decide

theorem operands_limit (l : Level) (n : Nat) : l.operands.limit n = n := by
  cases l <;> rfl

theorem level_mirrors {l : Level} (hr : r <:+ ts) (hcall : CallsFrom ts finish (level l) r call)
    (hd : 20 * r.length + 2 * l.looseness < d) : Mirrors ts finish r.length
      ((level l).body (tapeOf ts finish) call (cursorOf ts r)) (readLevel d l r) := by
  have hrank := operands_rank l
  match d with
  | 0 | 1 => omega
  | d + 2 =>
    rw [readLevel, body, readOperand_eq]
    refine (hcall.same l.operands hr (by change _ < 2 * l.looseness; omega) (by omega)).bind
      fun e u hu he => ?_
    rw [operands_limit] at he
    exact hcall.last (d := d + 1) (.levelLoop l e) hu he he (by omega)

theorem take?_eq (l : Level) (r : List Spot) :
    l.take? r = ((front r).bind l.op?).map fun op => (op, r.tail) := by
  cases r <;> rfl

theorem levelLoop_mirrors {l : Level} {left : Expr} (hr : r <:+ ts)
    (hcall : CallsFrom ts finish (levelLoop l left) r call) (hd : 20 * r.length < d) :
    Mirrors ts finish (r.length + 1)
      ((levelLoop l left).body (tapeOf ts finish) call (cursorOf ts r)) (joinRest d l left r) := by
  match d with
  | 0 => omega
  | d + 1 =>
    rw [joinRest, body, peek_eq hr, take?_eq, ok_bind]
    dsimp only
    cases hop : (front r).bind l.op? with
    | none => exact .done hr (Nat.lt_succ_self _)
    | some op =>
      obtain ⟨s, hs, -⟩ := Option.bind_eq_some_iff.1 hop
      have hlen := tail_of_front hs
      match d with
      | 0 => omega
      | d + 1 =>
        refine .shift hr hs fun hu hlen => ?_
        dsimp only [Option.map]
        rw [readOperand_eq]
        refine (hcall.later l.operands hu (by omega) (by omega)).bind fun right v hv hright => ?_
        rw [operands_limit] at hright
        dsimp only
        split
        · exact hcall.last (d := d + 1) (.levelLoop l _) hv (by omega) (by omega) (by omega)
        · exact .done hv (by omega)

theorem unary_mirrors (hr : r <:+ ts) (hcall : CallsFrom ts finish unary r call)
    (hd : 20 * r.length + 2 < d) : Mirrors ts finish r.length
      (unary.body (tapeOf ts finish) call (cursorOf ts r)) (readUnary d r) := by
  match d with
  | 0 => omega
  | d + 1 =>
    have hsigned : ∀ (op : UnaryOp) (s : Token), front r = some s → Mirrors ts finish r.length
        (advance (tapeOf ts finish) (cursorOf ts r) >>= fun x => call unary x.2 >>= fun y =>
          pure (Expr.unary op y.1, y.2))
        (readUnary d r.tail >>= fun y => pure (Expr.unary op y.1, y.2)) := fun op s h => by
      refine .shift hr h fun hu hlen => (hcall.later .unary hu (by omega) (by omega)).bind
        fun e v hv (he : v.length < r.tail.length) => ?_
      exact .done hv (by omega)
    rw [body, peek_eq hr, ok_bind]
    dsimp only
    split
    · next h =>
      rw [readUnary, h]
      exact hsigned .not _ h
    · next h =>
      rw [readUnary, h]
      exact hsigned .negate _ h
    · next h =>
      rw [readUnary, h]
      refine .shift hr h fun hu hlen => ?_
      exact hcall.last .unary hu (by omega) (by omega) (by omega)
    · next hnot hminus hplus =>
      have hplain : readUnary (d + 1) r = postfix_.read d r := by
        rw [readUnary]
        split <;> first | contradiction | rfl
      rw [hplain]
      exact hcall.same .postfix_ hr (by decide) (by simp only [rank]; omega)

theorem postfix_mirrors (hr : r <:+ ts) (hcall : CallsFrom ts finish postfix_ r call)
    (hd : 20 * r.length + 1 < d) : Mirrors ts finish r.length
      (postfix_.body (tapeOf ts finish) call (cursorOf ts r)) (postfix_.read d r) := by
  rw [body, read]
  refine (hcall.same .primary hr (by decide) (by simp only [rank]; omega)).bind
    fun e u hu (he : u.length < r.length) => ?_
  exact hcall.last (.postfixLoop e) hu he he (by omega)

theorem member_mirrors {p : Procedure α} {target : Expr} {safe : Bool} {u : List Spot}
    (hu : u <:+ ts) (hlen : u.length < r.length) (hcall : CallsFrom ts finish p r call)
    (hd : 20 * u.length + 16 < d) : Mirrors ts finish u.length
      (member (tapeOf ts finish) call target safe (cursorOf ts u))
      (readMember d target safe u) := by
  match d with
  | 0 => omega
  | d + 1 =>
    rw [readMember, member]
    refine (Mirrors.name hu).bind fun n v hv hn => ?_
    refine .eat hv (fun hw hlen => ?_) ?_
    · refine (hcall.later (.arguments .rparen) hw (by omega) (by omega)).bind
        fun as w hw (has : w.length < v.tail.length) => ?_
      exact hcall.last (.postfixLoop _) hw (by omega) (by omega) (by omega)
    · exact hcall.last (.postfixLoop _) hv (by omega) hn (by omega)

theorem postfixLoop_mirrors {e : Expr} (hr : r <:+ ts)
    (hcall : CallsFrom ts finish (postfixLoop e) r call) (hd : 20 * r.length < d) :
    Mirrors ts finish (r.length + 1)
      ((postfixLoop e).body (tapeOf ts finish) call (cursorOf ts r)) (readMembers d e r) := by
  match d with
  | 0 => omega
  | d + 1 =>
    rw [body, peek_eq hr, ok_bind]
    dsimp only
    split
    · next h =>
      rw [readMembers, h]
      refine .shift hr h fun hu hlen => ?_
      exact (member_mirrors hu (by omega) hcall (by omega)).mono (by omega)
    · next h =>
      rw [readMembers, h]
      refine .shift hr h fun hu hlen => ?_
      exact (member_mirrors hu (by omega) hcall (by omega)).mono (by omega)
    · next h =>
      rw [readMembers, h]
      refine .shift hr h fun hu hlen => (hcall.later .expression hu (by omega) (by omega)).bind
        fun k v hv (hk : v.length < r.tail.length) => .expect hv fun hw hlen => ?_
      exact hcall.last (.postfixLoop _) hw (by omega) (by omega) (by omega)
    · next hdot hsafe hbracket =>
      have hplain : readMembers (d + 1) e r = .ok (e, r) := by
        rw [readMembers]
        split <;> first | contradiction | rfl
      rw [hplain]
      exact .done hr (Nat.lt_succ_self _)

theorem primary_mirrors (hr : r <:+ ts) (hcall : CallsFrom ts finish primary r call)
    (hd : 20 * r.length < d) : Mirrors ts finish r.length
      (primary.body (tapeOf ts finish) call (cursorOf ts r)) (readPrimary d r) := by
  match d with
  | 0 => omega
  | d + 1 =>
    have htail : r.tail <:+ ts := (List.tail_suffix r).trans hr
    rw [readPrimary, body, peek_eq hr, ok_bind]
    dsimp only
    rw [advance_eq hr, ok_bind]
    dsimp only
    cases hfront : front r with
    | none => exact .fault
    | some s =>
      have hlen := tail_of_front hfront
      cases s with
      | int | float | text | var | name => exact .done htail (by omega)
      | sign s =>
        cases s with
        | lparen =>
          refine (hcall.later .expression htail (by omega) (by omega)).bind
            fun e u hu (he : u.length < r.tail.length) => ?_
          exact .expect hu fun hv hlen => .done hv (by omega)
        | lbrace =>
          refine (hcall.later (.arguments .rbrace) htail (by omega) (by omega)).bind
            fun es u hu (hes : u.length < r.tail.length) => ?_
          exact .done hu (by omega)
        | _ => exact .fault

theorem arguments_mirrors {close : Sign} (hr : r <:+ ts)
    (hcall : CallsFrom ts finish (arguments close) r call) (hd : 20 * r.length + 15 < d) :
    Mirrors ts finish r.length
      ((arguments close).body (tapeOf ts finish) call (cursorOf ts r))
      (readArguments d close r) := by
  match d with
  | 0 => omega
  | d + 1 =>
    rw [readArguments, body]
    refine .eat hr (fun hu hlen => .done hu (by omega)) ?_
    exact hcall.same (.argumentsLoop close) hr (by simp only [rank]; omega)
      (by simp only [rank]; omega)

theorem argumentsLoop_mirrors {close : Sign} (hr : r <:+ ts)
    (hcall : CallsFrom ts finish (argumentsLoop close) r call) (hd : 20 * r.length + 14 < d) :
    Mirrors ts finish r.length
      ((argumentsLoop close).body (tapeOf ts finish) call (cursorOf ts r))
      (readArgumentsRest d close r) := by
  match d with
  | 0 => omega
  | d + 1 =>
    rw [readArgumentsRest, body]
    refine (hcall.same .expression hr (by simp only [rank]; omega) (by simp only [rank]; omega)).bind
      fun e u hu (he : u.length < r.length) => ?_
    refine .eat hu (fun hv hlen => ?_) (.expect hu fun hv hlen => .done hv (by omega))
    refine (hcall.later (.argumentsLoop close) hv (by omega) (by omega)).bind
      fun es w hw (hes : w.length < u.tail.length) => ?_
    exact .done hw (by omega)

theorem body_mirrors (p : Procedure α) (hr : r <:+ ts) (hcall : CallsFrom ts finish p r call)
    (hd : 20 * r.length + p.rank < d) : Mirrors ts finish (p.limit r.length)
      (p.body (tapeOf ts finish) call (cursorOf ts r)) (p.read d r) := by
  cases p with
  | expression => exact expression_mirrors hr hcall hd
  | level l => exact level_mirrors hr hcall hd
  | levelLoop l left => exact levelLoop_mirrors hr hcall hd
  | unary => exact unary_mirrors hr hcall hd
  | postfix_ => exact postfix_mirrors hr hcall hd
  | postfixLoop e => exact postfixLoop_mirrors hr hcall hd
  | primary => exact primary_mirrors hr hcall hd
  | arguments close => exact arguments_mirrors hr hcall hd
  | argumentsLoop close => exact argumentsLoop_mirrors hr hcall hd

theorem nearer_of_left {q : Procedure β} {p : Procedure α} {u : List Spot} (hr : r <:+ ts)
    (hu : u <:+ ts) (h : u.length < r.length ∨ u.length = r.length ∧ q.rank < p.rank) :
    Nearer (tapeOf ts finish).length q (cursorOf ts u) p (cursorOf ts r) := by
  have hr := hr.length_le
  have hu := hu.length_le
  rw [Nearer, length_tapeOf, cursorOf, cursorOf]
  refine ⟨by omega, h.imp (fun h => by omega) (fun h => ⟨by omega, h.2⟩)⟩

theorem run_mirrors {α : Type} (p : Procedure α) {r : List Spot} {d : Nat} (hr : r <:+ ts)
    (hd : 20 * r.length + p.rank < d) : Mirrors ts finish (p.limit r.length)
      (p.run (tapeOf ts finish) (cursorOf ts r)) (p.read d r) := by
  rw [run]
  refine body_mirrors p hr (fun q u e hu hnearer he => ?_) hd
  dsimp only
  rw [if_pos (nearer_of_left hr hu hnearer)]
  exact run_mirrors q hu he
termination_by (r.length, p.rank)
decreasing_by
  obtain hlater | ⟨heq, hrank⟩ := hnearer
  · exact .left _ _ hlater
  · rw [heq]
    exact .right _ hrank

end Procedure

end Suffixes

def watchedTree (t : Tape) : Scanning Expr := do
  let (e, i) ← Procedure.expression.run t 0
  let (found, p) ← peek t i
  if found = none then pure e else fault (p, .trailing found)

def watchedParse (s : String) : Watched ExprError Expr :=
  retell (fun x => .syntaxError s x.1 x.2) do
    let t ← watchedScan s
    watchedTree t

variable {ts : List Spot} {finish : Nat}

theorem cursorOf_drop {i : Nat} (hi : i ≤ ts.length) : cursorOf ts (ts.drop i) = i := by
  rw [cursorOf, List.length_drop]
  omega

theorem Procedure.run_eq {α : Type} (p : Procedure α) {i : Nat} (hi : i ≤ ts.length) :
    p.run (tapeOf ts finish) i =
      p.body (tapeOf ts finish) (fun q j => q.run (tapeOf ts finish) j) i := by
  have hsuffix := List.drop_suffix i ts
  have hd := Nat.lt_succ_self (20 * (ts.drop i).length + p.rank)
  have hcalls : CallsFrom ts finish p (ts.drop i) fun q j => q.run (tapeOf ts finish) j :=
    fun q u d hu _ hd => q.run_mirrors hu hd
  rw [← cursorOf_drop hi]
  exact (p.run_mirrors hsuffix hd).unique (p.body_mirrors hsuffix hcalls hd)

theorem Procedure.run_free {α : Type} (p : Procedure α) {i : Nat} (hi : i ≤ ts.length) :
    ∃ x : Except (Nat × SyntaxFault) (α × Nat), p.run (tapeOf ts finish) i = free x ∧
      ∀ a j, x = .ok (a, j) → i + p.least ≤ j ∧ j ≤ ts.length := by
  have hrun : Mirrors ts finish (p.limit (ts.drop i).length) (p.run (tapeOf ts finish) i)
      (p.read (20 * (ts.drop i).length + p.rank + 1) (ts.drop i)) := by
    have hd := Nat.lt_succ_self (20 * (ts.drop i).length + p.rank)
    have hrun : Mirrors ts finish _ _ _ := p.run_mirrors (List.drop_suffix i ts) hd
    rwa [cursorOf_drop hi] at hrun
  cases hread : p.read (20 * (ts.drop i).length + p.rank + 1) (ts.drop i) with
  | error f => exact ⟨.error _, hrun.2 f hread, nofun⟩
  | ok y =>
    obtain ⟨hok, hsuffix, hlen⟩ := hrun.1 y.1 y.2 hread
    refine ⟨.ok (y.1, cursorOf ts y.2), hok, ?_⟩
    rintro _ _ ⟨⟩
    rw [limit, List.length_drop] at hlen
    rw [cursorOf]
    omega

theorem watchedTree_eq (ts : List Spot) (finish : Nat) : watchedTree (tapeOf ts finish) =
    free ((ofSpots ts).mapError fun f => (f.position.getD finish, f.cause)) := by
  have hrun : Mirrors ts finish ts.length (Procedure.expression.run (tapeOf ts finish) 0)
      (readExpression (depth ts) ts) := by
    have hd : 20 * ts.length + 13 < depth ts := by
      rw [depth]
      omega
    rw [← cursorOf_drop (Nat.zero_le ts.length), List.drop_zero]
    exact Procedure.expression.run_mirrors List.suffix_rfl hd
  unfold watchedTree ofSpots
  cases hread : readExpression (depth ts) ts with
  | error f =>
    rw [hrun.2 f hread]
    rfl
  | ok y =>
    obtain ⟨e, r⟩ := y
    obtain ⟨hok, hsuffix, -⟩ := hrun.1 e r hread
    rw [hok, ok_bind]
    dsimp only
    rw [peek_eq hsuffix]
    cases r <;> rfl

theorem watchedParse_eq (s : String) : watchedParse s = free (parse s) := by
  unfold watchedParse parse
  rw [watchedScan_eq]
  cases scan s with
  | error x => rfl
  | ok ts =>
    change retell _ (watchedTree (tapeOf ts s.toList.length)) = _
    rw [watchedTree_eq, retell_free]
    cases h : ofSpots ts <;> simp only [h] <;> rfl

end CachedCalls.Expr
