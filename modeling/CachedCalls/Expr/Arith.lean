import CachedCalls.Expr.Error
import CachedCalls.Expr.Syntax
import CachedCalls.Number.Layout

/-!
Arithmetic and comparison. Whole numbers are computed as signed words as long as the result is
one; past that, and with a float on either side, the numbers are computed as floats.
-/

set_option autoImplicit false

namespace CachedCalls.Expr

inductive Num where
  | int (n : Int)
  | float (x : Float)

def Num.toFloat : Num → Float
  | int n => Float.ofInt n
  | float x => x

def signedOf? : Value → Option Int
  | .int n => if Number.isSigned n then some n else none
  | _ => none

def floatOf? : Value → Option Float
  | .int n => some (Float.ofInt n)
  | .float x => some x
  | _ => none

/-- Whole numbers beyond the signed words count as floats. -/
def num? (v : Value) : Except ExprError Num :=
  match signedOf? v, floatOf? v with
  | some n, _ => .ok (.int n)
  | none, some x => .ok (.float x)
  | none, none => .error (.mismatchOf .number v)

def signed? (n : Int) : Option Int := if Number.isSigned n then some n else none

/-- The exact result of an operation on whole numbers, if a signed word holds it. The remainder
    is taken together with the quotient, which must fit as well. -/
def wholeResult? (op : BinaryOp) (a b : Int) : Option Int :=
  match op with
  | .add => signed? (a + b)
  | .sub => signed? (a - b)
  | .mul => signed? (a * b)
  | .div => signed? (Int.tdiv a b)
  | .rem => (signed? (Int.tdiv a b)).map fun _ => Int.tmod a b
  | _ => none

def floatResult (op : BinaryOp) (a b : Float) : Float :=
  match op with
  | .add => a + b
  | .sub => a - b
  | .mul => a * b
  | .div => a / b
  | .rem => Number.remainder a b
  | _ => Float.ofBits 0x7ff8000000000000

def BinaryOp.divides : BinaryOp → Bool
  | div => true
  | rem => true
  | _ => false

def finite (x : Float) : Except ExprError Value :=
  if x.isFinite then .ok (.float x) else .error (.mismatch .finite (Number.valueLayout.write x))

def floatArith (op : BinaryOp) (a b : Float) : Except ExprError Value :=
  if op.divides && b == 0.0 then .error .divisionByZero else finite (floatResult op a b)

def arith (op : BinaryOp) : Num → Num → Except ExprError Value
  | .int a, .int b =>
    if op.divides && b == 0 then .error .divisionByZero
    else
      match wholeResult? op a b with
      | some n => .ok (.int n)
      | none => floatArith op (Float.ofInt a) (Float.ofInt b)
  | a, b => floatArith op a.toFloat b.toFloat

def negate : Num → Value
  | .int n =>
    match signed? (-n) with
    | some m => .int m
    | none => .float (-Float.ofInt n)
  | .float x => .float (-x)

def valuesEqual (a b : Value) : Bool :=
  match signedOf? a, signedOf? b, floatOf? a, floatOf? b with
  | some m, some n, _, _ => decide (m = n)
  | _, _, some x, some y => x == y
  | _, _, _, _ => a.agrees b

def compareInts (a b : Int) : Ordering := if a < b then .lt else if a = b then .eq else .gt

def compareFloats? (a b : Float) : Option Ordering :=
  if a < b then some .lt else if a == b then some .eq else if b < a then some .gt else none

def compareStrings (a b : String) : Ordering := if a < b then .lt else if a = b then .eq else .gt

def compareBools : Bool → Bool → Ordering
  | false, true => .lt
  | true, false => .gt
  | _, _ => .eq

def compareNums (v : Value) : Num → Num → Except ExprError Ordering
  | .int a, .int b => .ok (compareInts a b)
  | a, b =>
    match compareFloats? a.toFloat b.toFloat with
    | some o => .ok o
    | none => .error (.mismatchOf .comparableNumber v)

def isNumber : Value → Bool
  | .int _ => true
  | .float _ => true
  | _ => false

/-- Null comes before everything; otherwise only values of one kind can be compared. -/
def compareValues (a b : Value) : Except ExprError Ordering :=
  match a, b with
  | .null, .null => .ok .eq
  | .null, _ => .ok .lt
  | _, .null => .ok .gt
  | .str s, .str t => .ok (compareStrings s t)
  | .bool p, .bool q => .ok (compareBools p q)
  | a, b =>
    if isNumber a && isNumber b then
      match num? a, num? b with
      | .ok m, .ok n => compareNums a m n
      | .error e, _ => .error e
      | _, .error e => .error e
    else .error (.mismatch (.comparableWith a.kind) b.kind)

end CachedCalls.Expr
