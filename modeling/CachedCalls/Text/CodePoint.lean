import CachedCalls.Number.Radix

set_option autoImplicit false

namespace CachedCalls.Text

def charAt? (n : Nat) : Option Char :=
  if n < 0xD800 ∨ (0xDFFF < n ∧ n < 0x110000) then some (Char.ofNat n) else none

def charOfHex? (ds : List Char) : Option Char := (Number.naturalIn? 16 ds).bind charAt?

def takeHexChar? (n : Nat) (cs : List Char) : Option (Char × List Char) :=
  if (cs.take n).length < n then none else (charOfHex? (cs.take n)).map fun c => (c, cs.drop n)

def surrogatePair? (high low : Nat) : Option Char :=
  if (0xD800 ≤ high ∧ high < 0xDC00) ∧ (0xDC00 ≤ low ∧ low < 0xE000) then
    some (Char.ofNat (0x10000 + (high - 0xD800) * 0x400 + (low - 0xDC00)))
  else none

end CachedCalls.Text
