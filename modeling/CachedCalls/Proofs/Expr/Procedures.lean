import CachedCalls.Proofs.Expr.Grammar
import CachedCalls.Proofs.Expr.WatchedScan

/-!
Reading tokens with a cursor on them. The procedures of the parser call one another; a call is
stopped unless it is made at a later token than its caller was called at, or at the same token by a
procedure that binds more loosely, and in either case within the tokens. No other bound is put on
the recursion.
-/

set_option autoImplicit false

namespace CachedCalls.Expr

open CachedCalls.Watched

def peek (t : Tape) (i : Nat) : Scanning (Option Token × Nat) := do
  let last ← sub t.length 1
  require (i ≤ last)
  item t (min i last)

def advance (t : Tape) (i : Nat) : Scanning (Option Token × Nat) := do
  let (found, _) ← peek t i
  let last ← sub t.length 1
  pure (found, if i < last then i + 1 else i)

def eat (t : Tape) (s : Sign) (i : Nat) : Scanning (Bool × Nat) := do
  let (found, _) ← peek t i
  if found = some (.sign s) then
    let (_, i) ← advance t i
    pure (true, i)
  else pure (false, i)

def expectSign (t : Tape) (s : Sign) (i : Nat) : Scanning Nat := do
  let (eaten, i) ← eat t s i
  if eaten then pure i
  else
    let (found, p) ← peek t i
    fault (p, .expected s found)

def nameAt (t : Tape) (i : Nat) : Scanning (String × Nat) := do
  let (found, i) ← advance t i
  match found with
  | some (.name n) => pure (n, i)
  | found =>
    let (_, p) ← peek t i
    fault (p, .expectedName found)

/-- The procedures of the parser, with what they give. A loop goes on from what it has read. -/
inductive Procedure : Type → Type where
  | expression : Procedure Expr
  | level (l : Level) : Procedure Expr
  | levelLoop (l : Level) (left : Expr) : Procedure Expr
  | unary : Procedure Expr
  | postfix_ : Procedure Expr
  | postfixLoop (target : Expr) : Procedure Expr
  | primary : Procedure Expr
  | arguments (close : Sign) : Procedure (List Expr)
  | argumentsLoop (close : Sign) : Procedure (List Expr)

def Level.operands (l : Level) : Procedure Expr :=
  match l.next with
  | some tighter => .level tighter
  | none => .unary

namespace Procedure

variable {α β : Type}

/-- Procedures by how loosely they bind; each may call those below it at its own token. -/
def rank : Procedure α → Nat
  | arguments _ => 15
  | argumentsLoop _ => 14
  | expression => 13
  | level l => 2 * l.looseness
  | unary => 2
  | postfix_ => 1
  | primary => 0
  | levelLoop _ _ => 0
  | postfixLoop _ => 0

abbrev Calls := ∀ {β : Type}, Procedure β → Nat → Scanning (β × Nat)

def member (t : Tape) (call : Calls) (target : Expr) (safe : Bool) (i : Nat) :
    Scanning (Expr × Nat) := do
  let (n, i) ← nameAt t i
  let (called, i) ← eat t .lparen i
  if called then
    let (as, i) ← call (.arguments .rparen) i
    call (.postfixLoop (.call target n as safe)) i
  else call (.postfixLoop (.property target n safe)) i

def body (t : Tape) (call : Calls) : {α : Type} → Procedure α → Nat → Scanning (α × Nat)
  | _, expression, i => do
    let (c, i) ← call (.level .or) i
    let (asked, i) ← eat t .question i
    if asked then
      let (y, i) ← call .expression i
      let i ← expectSign t .colon i
      let (n, i) ← call .expression i
      pure (.ternary c y n, i)
    else
      let (offered, i) ← eat t .elvis i
      if offered then
        let (f, i) ← call .expression i
        pure (.elvis c f, i)
      else pure (c, i)
  | _, level l, i => do
    let (left, i) ← call l.operands i
    call (.levelLoop l left) i
  | _, levelLoop l left, i => do
    let (found, _) ← peek t i
    match found.bind l.op? with
    | none => pure (left, i)
    | some op =>
      let (_, i) ← advance t i
      let (right, i) ← call l.operands i
      if l.repeats then call (.levelLoop l (.binary op left right)) i
      else pure (.binary op left right, i)
  | _, unary, i => do
    let (found, _) ← peek t i
    match found with
    | some (.sign .not) =>
      let (_, i) ← advance t i
      let (e, i) ← call .unary i
      pure (.unary .not e, i)
    | some (.sign .minus) =>
      let (_, i) ← advance t i
      let (e, i) ← call .unary i
      pure (.unary .negate e, i)
    | some (.sign .plus) =>
      let (_, i) ← advance t i
      call .unary i
    | _ => call .postfix_ i
  | _, postfix_, i => do
    let (e, i) ← call .primary i
    call (.postfixLoop e) i
  | _, postfixLoop e, i => do
    let (found, _) ← peek t i
    match found with
    | some (.sign .dot) =>
      let (_, i) ← advance t i
      member t call e false i
    | some (.sign .safeDot) =>
      let (_, i) ← advance t i
      member t call e true i
    | some (.sign .lbracket) =>
      let (_, i) ← advance t i
      let (k, i) ← call .expression i
      let i ← expectSign t .rbracket i
      call (.postfixLoop (.index e k)) i
    | _ => pure (e, i)
  | _, primary, i => do
    let (_, p) ← peek t i
    let (found, i) ← advance t i
    match found with
    | some (.int n) => pure (.literal (.int n), i)
    | some (.float x) => pure (.literal (.float x), i)
    | some (.text s) => pure (.literal (.str s), i)
    | some (.var n) => pure (.var n, i)
    | some (.name w) => pure (nameExpr w, i)
    | some (.sign .lparen) =>
      let (e, i) ← call .expression i
      let i ← expectSign t .rparen i
      pure (e, i)
    | some (.sign .lbrace) =>
      let (es, i) ← call (.arguments .rbrace) i
      pure (.list es, i)
    | found => fault (p, .unexpected found)
  | _, arguments close, i => do
    let (closed, i) ← eat t close i
    if closed then pure ([], i) else call (.argumentsLoop close) i
  | _, argumentsLoop close, i => do
    let (e, i) ← call .expression i
    let (more, i) ← eat t .comma i
    if more then
      let (es, i) ← call (.argumentsLoop close) i
      pure (e :: es, i)
    else
      let i ← expectSign t close i
      pure ([e], i)

/-- A call of `q` at `j` is within `n` tokens and comes nearer to the end than that of `p` at `i`:
    it is later, or at the same token by a procedure further down the order. -/
def Nearer (n : Nat) (q : Procedure β) (j : Nat) (p : Procedure α) (i : Nat) : Prop :=
  j < n ∧ (i < j ∨ i = j ∧ q.rank < p.rank)

instance {n i j : Nat} {q : Procedure β} {p : Procedure α} : Decidable (Nearer n q j p i) :=
  inferInstanceAs (Decidable (_ ∧ _))

def run {α : Type} (t : Tape) (p : Procedure α) (i : Nat) : Scanning (α × Nat) :=
  p.body t (fun q j => if Nearer t.length q j p i then q.run t j else stop) i
termination_by (t.length - i, p.rank)
decreasing_by
  next h =>
  obtain ⟨hj, hlater | ⟨rfl, hrank⟩⟩ := h
  · exact .left _ _ (by omega)
  · exact .right _ hrank

end Procedure

end CachedCalls.Expr
