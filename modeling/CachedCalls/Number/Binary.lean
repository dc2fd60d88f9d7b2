set_option autoImplicit false

namespace CachedCalls.Number

abbrev signBit : Nat := 0x8000000000000000

abbrev leadingBit : Nat := 0x10000000000000

def isNegative (x : Float) : Bool := decide (signBit ≤ x.toBits.toNat)

def exponentField (x : Float) : Nat := x.toBits.toNat / leadingBit % 2048

def fractionField (x : Float) : Nat := x.toBits.toNat % leadingBit

/-- A finite `x` has the magnitude `significand x * 2 ^ scale x`. -/
def significand (x : Float) : Nat :=
  if exponentField x = 0 then fractionField x else leadingBit + fractionField x

def scale (x : Float) : Int :=
  if exponentField x = 0 then -1074 else (exponentField x : Int) - 1075

/-- The bits of `m * 2 ^ q` for `m` of at most 53 bits; bits below the least exponent are dropped. -/
def magnitudeBits (m : Nat) (q : Int) : Nat :=
  if q < -1074 then m >>> (-1074 - q).toNat
  else if m < leadingBit then
    let up := min (52 - m.log2) (q + 1074).toNat
    let m' := m <<< up
    if m' < leadingBit then m' else (q - up + 1075).toNat * leadingBit + (m' - leadingBit)
  else (q + 1075).toNat * leadingBit + (m - leadingBit)

/-- The number `± m * 2 ^ q`, exact whenever binary64 holds it. -/
def ofScaled (negative : Bool) (m : Nat) (q : Int) : Float :=
  let down := m.log2 - 52
  let bits := magnitudeBits (m >>> down) (q + down)
  Float.ofBits (UInt64.ofNat (if negative then signBit + bits else bits))

/-- The remainder of the division that truncates toward zero: exact, with the sign of `x`. -/
def remainder (x y : Float) : Float :=
  if y.isFinite && x.isFinite then
    let q := min (scale x) (scale y)
    let a := significand x <<< (scale x - q).toNat
    let b := significand y <<< (scale y - q).toNat
    ofScaled (isNegative x) (a % b) q
  else x

abbrev wordCount : Nat := 0x10000000000000000

def roundToWord (x : Float) : Nat :=
  if x.isNaN || isNegative x then 0
  else if x.isFinite then
    let q := scale x
    let n :=
      if q < 0 then (2 * significand x + (1 <<< (-q).toNat)) >>> (1 - q).toNat
      else significand x <<< q.toNat
    min n (wordCount - 1)
  else wordCount - 1

def isSigned (n : Int) : Bool := decide (-signBit ≤ n ∧ n < signBit)

def isWord (n : Int) : Bool := decide (-signBit ≤ n ∧ n < wordCount)

end CachedCalls.Number
