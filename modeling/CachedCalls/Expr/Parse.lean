import CachedCalls.Expr.Scan
import CachedCalls.Expr.Syntax

/-!
From spots to a tree. Every function takes its part off the front and gives back the rest; its
first argument bounds the depth of the recursion, and `depth` is more than any list of spots needs.
-/

set_option autoImplicit false

namespace CachedCalls.Expr

/-- Binary operators by how loosely they bind. -/
inductive Level where
  | or
  | and
  | relational
  | additive
  | multiplicative
  deriving DecidableEq

def Level.next : Level → Option Level
  | or => some and
  | and => some relational
  | relational => some additive
  | additive => some multiplicative
  | multiplicative => none

/-- A relational operator joins two operands and no more. -/
def Level.repeats : Level → Bool
  | relational => false
  | _ => true

def Level.op? : Level → Token → Option BinaryOp
  | or, .sign .or => some .or
  | and, .sign .and => some .and
  | relational, .sign .eq => some .eq
  | relational, .sign .ne => some .ne
  | relational, .sign .lt => some .lt
  | relational, .sign .le => some .le
  | relational, .sign .gt => some .gt
  | relational, .sign .ge => some .ge
  | additive, .sign .plus => some .add
  | additive, .sign .minus => some .sub
  | multiplicative, .sign .star => some .mul
  | multiplicative, .sign .slash => some .div
  | multiplicative, .sign .percent => some .rem
  | _, _ => none

def Level.take? (l : Level) : List Spot → Option (BinaryOp × List Spot)
  | [] => none
  | s :: r => (l.op? s.token).map fun op => (op, r)

/-- A fault at a position, or at the end of the text. -/
structure Fault where
  position : Option Nat
  cause : SyntaxFault
  deriving DecidableEq

abbrev Reading := Except Fault

def front (ts : List Spot) : Option Token := ts.head?.map (·.token)

def faultAt {α : Type} (ts : List Spot) (cause : SyntaxFault) : Reading α :=
  .error ⟨ts.head?.map (·.position), cause⟩

def expect (s : Sign) (ts : List Spot) : Reading (List Spot) :=
  if front ts = some (.sign s) then .ok ts.tail else faultAt ts (.expected s (front ts))

def nameExpr (w : String) : Expr :=
  let f := foldWord w.toList
  if f = "true" then .literal (.bool true)
  else if f = "false" then .literal (.bool false)
  else if f = "null" then .literal .null
  else .name w

/-- The name after a dot. A fault is placed after the token that should have been a name. -/
def memberName : List Spot → Reading (String × List Spot)
  | ⟨.name n, _⟩ :: r => .ok (n, r)
  | ts => faultAt ts.tail (.expectedName (front ts))

mutual

def readExpression : Nat → List Spot → Reading (Expr × List Spot)
  | 0, ts => faultAt ts .tooDeep
  | d + 1, ts => do
    let (c, r) ← readLevel d .or ts
    if front r = some (.sign .question) then
      let (y, r) ← readExpression d r.tail
      let r ← expect .colon r
      let (n, r) ← readExpression d r
      pure (.ternary c y n, r)
    else if front r = some (.sign .elvis) then
      let (f, r) ← readExpression d r.tail
      pure (.elvis c f, r)
    else pure (c, r)

def readLevel : Nat → Level → List Spot → Reading (Expr × List Spot)
  | 0, _, ts => faultAt ts .tooDeep
  | d + 1, l, ts => do
    let (e, r) ← readOperand d l ts
    joinRest d l e r

def readOperand : Nat → Level → List Spot → Reading (Expr × List Spot)
  | 0, _, ts => faultAt ts .tooDeep
  | d + 1, l, ts =>
    match l.next with
    | some tighter => readLevel d tighter ts
    | none => readUnary d ts

def joinRest : Nat → Level → Expr → List Spot → Reading (Expr × List Spot)
  | 0, _, _, ts => faultAt ts .tooDeep
  | d + 1, l, left, ts =>
    match l.take? ts with
    | none => .ok (left, ts)
    | some (op, r) => do
      let (right, r) ← readOperand d l r
      if l.repeats then joinRest d l (.binary op left right) r
      else pure (.binary op left right, r)

/-- A plus sign leaves no trace. -/
def readUnary : Nat → List Spot → Reading (Expr × List Spot)
  | 0, ts => faultAt ts .tooDeep
  | d + 1, ts =>
    match front ts with
    | some (.sign .not) => do
      let (e, r) ← readUnary d ts.tail
      pure (.unary .not e, r)
    | some (.sign .minus) => do
      let (e, r) ← readUnary d ts.tail
      pure (.unary .negate e, r)
    | some (.sign .plus) => readUnary d ts.tail
    | _ => do
      let (e, r) ← readPrimary d ts
      readMembers d e r

def readMembers : Nat → Expr → List Spot → Reading (Expr × List Spot)
  | 0, _, ts => faultAt ts .tooDeep
  | d + 1, e, ts =>
    match front ts with
    | some (.sign .dot) => readMember d e false ts.tail
    | some (.sign .safeDot) => readMember d e true ts.tail
    | some (.sign .lbracket) => do
      let (i, r) ← readExpression d ts.tail
      let r ← expect .rbracket r
      readMembers d (.index e i) r
    | _ => .ok (e, ts)

def readMember : Nat → Expr → Bool → List Spot → Reading (Expr × List Spot)
  | 0, _, _, ts => faultAt ts .tooDeep
  | d + 1, e, safe, ts => do
    let (n, r) ← memberName ts
    if front r = some (.sign .lparen) then
      let (as, r) ← readArguments d .rparen r.tail
      readMembers d (.call e n as safe) r
    else readMembers d (.property e n safe) r

def readArguments : Nat → Sign → List Spot → Reading (List Expr × List Spot)
  | 0, _, ts => faultAt ts .tooDeep
  | d + 1, close, ts =>
    if front ts = some (.sign close) then .ok ([], ts.tail) else readArgumentsRest d close ts

def readArgumentsRest : Nat → Sign → List Spot → Reading (List Expr × List Spot)
  | 0, _, ts => faultAt ts .tooDeep
  | d + 1, close, ts => do
    let (e, r) ← readExpression d ts
    if front r = some (.sign .comma) then
      let (es, r) ← readArgumentsRest d close r.tail
      pure (e :: es, r)
    else
      let r ← expect close r
      pure ([e], r)

def readPrimary : Nat → List Spot → Reading (Expr × List Spot)
  | 0, ts => faultAt ts .tooDeep
  | d + 1, ts =>
    match front ts with
    | some (.int n) => .ok (.literal (.int n), ts.tail)
    | some (.float x) => .ok (.literal (.float x), ts.tail)
    | some (.text s) => .ok (.literal (.str s), ts.tail)
    | some (.var n) => .ok (.var n, ts.tail)
    | some (.name w) => .ok (nameExpr w, ts.tail)
    | some (.sign .lparen) => do
      let (e, r) ← readExpression d ts.tail
      let r ← expect .rparen r
      pure (e, r)
    | some (.sign .lbrace) => do
      let (es, r) ← readArguments d .rbrace ts.tail
      pure (.list es, r)
    | found => faultAt ts (.unexpected found)

end

/-- Between two tokens the recursion goes through each level at most twice. -/
def depth (ts : List Spot) : Nat := 20 * ts.length + 20

def ofSpots (ts : List Spot) : Reading Expr :=
  match readExpression (depth ts) ts with
  | .error f => .error f
  | .ok (e, []) => .ok e
  | .ok (_, r) => faultAt r (.trailing (front r))

def parse (s : String) : Except ExprError Expr :=
  match scan s with
  | .error (p, f) => .error (.syntaxError s p f)
  | .ok ts =>
    match ofSpots ts with
    | .error f => .error (.syntaxError s (f.position.getD s.toList.length) f.cause)
    | .ok e => .ok e

end CachedCalls.Expr
