import CachedCalls.Number.Literal

set_option autoImplicit false

namespace CachedCalls.Number

def hexValue? (c : Char) : Option Nat :=
  if '0' ≤ c ∧ c ≤ '9' then some (c.toNat - 48)
  else if 'a' ≤ c ∧ c ≤ 'f' then some (c.toNat - 87)
  else if 'A' ≤ c ∧ c ≤ 'F' then some (c.toNat - 55)
  else none

def isHexDigit (c : Char) : Bool := (hexValue? c).isSome

def digitValueIn? (base : Nat) (c : Char) : Option Nat := (hexValue? c).filter (· < base)

def naturalIn? (base : Nat) (cs : List Char) : Option Nat :=
  if cs.isEmpty then none
  else (cs.mapM (digitValueIn? base)).map fun vs => vs.foldl (fun n d => base * n + d) 0

def integerIn? (base : Nat) : List Char → Option Int
  | '-' :: cs => (naturalIn? base cs).map fun n => -(n : Int)
  | '+' :: cs => (naturalIn? base cs).map Int.ofNat
  | cs => (naturalIn? base cs).map Int.ofNat

def signedIn? (base : Nat) (cs : List Char) : Option Int := (integerIn? base cs).filter isSigned

end CachedCalls.Number
