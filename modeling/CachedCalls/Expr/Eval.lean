import CachedCalls.Expr.Arith
import CachedCalls.Expr.Parse
import CachedCalls.Expr.Scope
import CachedCalls.Text.Blank
import CachedCalls.Text.Casing
import CachedCalls.Text.Search

set_option autoImplicit false

namespace CachedCalls.Expr

def boolOf (v : Value) : Except ExprError Bool :=
  match v with
  | .bool b => .ok b
  | v => .error (.mismatchOf .boolean v)

def stringOf (v : Value) : Except ExprError String :=
  match v with
  | .str s => .ok s
  | v => .error (.mismatchOf .string v)

def memberOfNull (safe : Bool) (n : String) : Except ExprError Value :=
  if safe then .ok .null else .error (.onNull n)

def memberOf (v : Value) (n : String) : Except ExprError Value :=
  match v with
  | .obj fs => .ok (Value.ofOption (Value.field? n fs))
  | .arr vs => if n = "length" then .ok (.ofNat vs.length) else .error (.unknownProperty ("array." ++ n))
  | v => .error (.unknownProperty (v.kind ++ "." ++ n))

def itemAt (vs : List Value) (i : Value) : Except ExprError Value :=
  match signedOf? i with
  | none => .error (.mismatchOf .index i)
  | some n =>
    if n < 0 then .error (.outOfBounds n vs.length)
    else
      match vs[n.toNat]? with
      | some v => .ok v
      | none => .error (.outOfBounds n vs.length)

/-- An object is indexed by the text of any value, a string by position like a list. -/
def indexInto (v i : Value) : Except ExprError Value :=
  match v with
  | .null => .error (.onNull ("[" ++ i.text ++ "]"))
  | .arr vs => itemAt vs i
  | .str s => itemAt (s.toList.map fun c => .str c.toString) i
  | .obj fs => .ok (Value.ofOption (Value.field? i.plain fs))
  | v => .error (.mismatchOf .indexable v)

def stringMethod (s n : String) (args : List Value) : Except ExprError Value :=
  match n, args with
  | "length", [] => .ok (.ofNat s.toList.length)
  | "isEmpty", [] => .ok (.bool s.isEmpty)
  | "toUpperCase", [] => .ok (.str (Text.upper s))
  | "toLowerCase", [] => .ok (.str (Text.lower s))
  | "trim", [] => .ok (.str (Text.trim s))
  | "contains", [a] => (stringOf a).map fun t => .bool (Text.contains s t)
  | "startsWith", [a] => (stringOf a).map fun t => .bool (Text.startsWith s t)
  | "endsWith", [a] => (stringOf a).map fun t => .bool (Text.endsWith s t)
  | _, _ => .error (.unknownMethod n "string")

def listMethod (vs : List Value) (n : String) (args : List Value) : Except ExprError Value :=
  match n, args with
  | "size", [] => .ok (.ofNat vs.length)
  | "isEmpty", [] => .ok (.bool vs.isEmpty)
  | "contains", [a] => .ok (.bool (vs.any (valuesEqual · a)))
  | "get", [a] => itemAt vs a
  | _, _ => .error (.unknownMethod n "array")

def objectMethod (fs : List (String × Value)) (n : String) (args : List Value) :
    Except ExprError Value :=
  match n, args with
  | "size", [] => .ok (.ofNat fs.length)
  | "isEmpty", [] => .ok (.bool fs.isEmpty)
  | "containsKey", [a] => (stringOf a).map fun k => .bool (Value.field? k fs).isSome
  | "get", [a] => indexInto (.obj fs) a
  | _, _ => .error (.unknownMethod n "object")

def callMethod (v : Value) (n : String) (args : List Value) : Except ExprError Value :=
  if n = "toString" ∧ args.isEmpty then .ok (.str v.plain)
  else
    match v with
    | .str s => stringMethod s n args
    | .arr vs => listMethod vs n args
    | .obj fs => objectMethod fs n args
    | v => .error (.unknownMethod n v.kind)

def applyUnary (op : UnaryOp) (v : Value) : Except ExprError Value :=
  match op with
  | .not => (boolOf v).map fun b => .bool !b
  | .negate => (num? v).map negate

def ordered (test : Ordering → Bool) (a b : Value) : Except ExprError Value :=
  (compareValues a b).map fun o => .bool (test o)

/-- The operators that look at both operands; `or` and `and` do not come here. -/
def applyBinary (op : BinaryOp) (a b : Value) : Except ExprError Value :=
  match op with
  | .eq => .ok (.bool (valuesEqual a b))
  | .ne => .ok (.bool !(valuesEqual a b))
  | .lt => ordered (· == .lt) a b
  | .le => ordered (· != .gt) a b
  | .gt => ordered (· == .gt) a b
  | .ge => ordered (· != .lt) a b
  | op =>
    if op = .add ∧ (a.isStr || b.isStr) then .ok (.str (a.plain ++ b.plain))
    else do
      let m ← num? a
      let n ← num? b
      arith op m n

/-- What the elvis operator replaces. -/
def isVoid : Value → Bool
  | .null => true
  | .str s => s.isEmpty
  | _ => false

mutual

def eval (s : Scope) : Expr → Except ExprError Value
  | .literal v => .ok v
  | .var n => s.lookup n
  | .name n =>
    match s.rootProperty? n with
    | some v => .ok v
    | none => .error (.unknownProperty n)
  | .property t n safe => do
    let v ← eval s t
    if v.isNull then memberOfNull safe n else memberOf v n
  | .call t n as safe => do
    let v ← eval s t
    if v.isNull then memberOfNull safe n
    else
      let args ← evalAll s as
      callMethod v n args
  | .index t i => do
    let v ← eval s t
    let i ← eval s i
    indexInto v i
  | .list es => do
    let vs ← evalAll s es
    pure (.arr vs)
  | .unary op e => do
    let v ← eval s e
    applyUnary op v
  | .binary .and l r => do
    let a ← eval s l
    let p ← boolOf a
    if p then
      let b ← eval s r
      let q ← boolOf b
      pure (.bool q)
    else pure (.bool false)
  | .binary .or l r => do
    let a ← eval s l
    let p ← boolOf a
    if p then pure (.bool true)
    else
      let b ← eval s r
      let q ← boolOf b
      pure (.bool q)
  | .binary op l r => do
    let a ← eval s l
    let b ← eval s r
    applyBinary op a b
  | .ternary c y n => do
    let v ← eval s c
    let p ← boolOf v
    if p then eval s y else eval s n
  | .elvis v f => do
    let w ← eval s v
    if isVoid w then eval s f else pure w

def evalAll (s : Scope) : List Expr → Except ExprError (List Value)
  | [] => .ok []
  | e :: es => do
    let v ← eval s e
    let vs ← evalAll s es
    pure (v :: vs)

end

def value (text : String) (s : Scope) : Except ExprError Value := do
  let e ← parse text
  eval s e

def asTest (v : Value) : Except ExprError Bool :=
  match v with
  | .bool b => .ok b
  | .null => .ok false
  | v => .error (.mismatchOf .boolean v)

end CachedCalls.Expr
