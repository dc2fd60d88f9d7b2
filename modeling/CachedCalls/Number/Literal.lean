import CachedCalls.Number.Binary

set_option autoImplicit false

namespace CachedCalls.Number

def digitValue (c : Char) : Nat := c.toNat - '0'.toNat

def isDigit (c : Char) : Bool := decide ('0' ≤ c ∧ c ≤ '9')

def ofDigits (ds : List Char) : Nat := ds.foldl (fun n c => 10 * n + digitValue c) 0

def natural? (cs : List Char) : Option Nat :=
  if cs.isEmpty || !cs.all isDigit then none else some (ofDigits cs)

def integer? : List Char → Option Int
  | '-' :: cs => (natural? cs).map fun n => -(n : Int)
  | '+' :: cs => (natural? cs).map Int.ofNat
  | cs => (natural? cs).map Int.ofNat

def signed? (cs : List Char) : Option Int := (integer? cs).filter isSigned

def word? (cs : List Char) : Option Nat :=
  (natural? (match cs with | '+' :: r => r | r => r)).filter (· < wordCount)

/-- The binary64 number nearest to `± m * 10 ^ e`, infinite above the range. -/
def nearest (negative : Bool) (m : Nat) (e : Int) : Float :=
  let size := (m.log2 : Int) / 3 + 1
  let x : Float :=
    if m = 0 ∨ e + size < -400 then 0.0
    else if 400 < e then Float.ofBits 0x7ff0000000000000
    else if e < 0 then Float.ofScientific m true e.natAbs
    else Float.ofScientific m false e.natAbs
  if negative then -x else x

def fraction? (cs : List Char) : Option (Nat × Nat × List Char) :=
  let whole := cs.takeWhile isDigit
  match cs.dropWhile isDigit with
  | '.' :: r =>
    let part := r.takeWhile isDigit
    if whole.isEmpty && part.isEmpty then none
    else some (ofDigits (whole ++ part), part.length, r.dropWhile isDigit)
  | r => if whole.isEmpty then none else some (ofDigits whole, 0, r)

/-- An unsigned number: digits, point and exponent, where a digit on one side of the point is
    enough. -/
def magnitude? (negative : Bool) (cs : List Char) : Option Float :=
  match fraction? cs with
  | none => none
  | some (m, places, []) => some (nearest negative m (-(places : Int)))
  | some (m, places, c :: r) =>
    if c = 'e' ∨ c = 'E' then (integer? r).map fun e => nearest negative m (e - places)
    else none

def special? (cs : List Char) : Option Float :=
  let w := String.ofList (cs.map Char.toLower)
  if w = "inf" ∨ w = "infinity" then some (Float.ofBits 0x7ff0000000000000)
  else if w = "nan" then some (Float.ofBits 0x7ff8000000000000)
  else none

def float? (cs : List Char) : Option Float :=
  let go (negative : Bool) (r : List Char) : Option Float :=
    match special? r with
    | some x => some (if negative then -x else x)
    | none => magnitude? negative r
  match cs with
  | '-' :: r => go true r
  | '+' :: r => go false r
  | r => go false r

end CachedCalls.Number
