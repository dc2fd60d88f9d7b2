import CachedCalls.Number.Binary

set_option autoImplicit false

namespace CachedCalls.Number

structure Decimal where
  digits : Nat
  exponent : Int
  deriving DecidableEq

/-- The reals `(4 * m + d) * 2 ^ (q - 2)` with `-below ≤ d ≤ above` round to the number; the ends
    belong to them iff `closed`. -/
structure Neighbourhood where
  centre : Nat
  below : Nat
  above : Nat
  scale : Int
  closed : Bool

def neighbourhood (x : Float) : Neighbourhood where
  centre := 4 * significand x
  below := if fractionField x = 0 ∧ 1 < exponentField x then 1 else 2
  above := 2
  scale := scale x - 2
  closed := significand x % 2 = 0

def Neighbourhood.onGrid (b : Neighbourhood) (g : Int) (n : Nat) : Nat :=
  (n <<< b.scale.toNat) * Nat.pow 10 (-g).toNat

def Neighbourhood.gridUnit (b : Neighbourhood) (g : Int) : Nat :=
  (1 <<< (-b.scale).toNat) * Nat.pow 10 g.toNat

def Neighbourhood.holds (b : Neighbourhood) (g : Int) (d : Nat) : Bool :=
  let v := d * b.gridUnit g
  let low := b.onGrid g (b.centre - b.below)
  let high := b.onGrid g (b.centre + b.above)
  if b.closed then decide (low ≤ v ∧ v ≤ high) else decide (low < v ∧ v < high)

/-- The point of the grid of step `10 ^ g` nearest to the centre, if one lies in the
    neighbourhood; a tie goes to the even one. -/
def Neighbourhood.nearest? (b : Neighbourhood) (g : Int) : Option Decimal :=
  let unit := b.gridUnit g
  let n := b.onGrid g b.centre
  let d := n / unit
  let preferLow := 2 * (n % unit) < unit || (2 * (n % unit) == unit && d % 2 == 0)
  match b.holds g d, b.holds g (d + 1) with
  | true, true => some ⟨if preferLow then d else d + 1, g⟩
  | true, false => some ⟨d, g⟩
  | false, true => some ⟨d + 1, g⟩
  | false, false => none

def Neighbourhood.wholeDigits (b : Neighbourhood) : Int :=
  let n := b.onGrid 0 b.centre
  let unit := b.gridUnit 0
  if unit ≤ n then ((Nat.toDigits 10 (n / unit)).length : Int)
  else 1 - ((Nat.toDigits 10 (unit / n)).length : Int)

/-- Grids of one digit, of two, and on to seventeen, which always suffice. -/
def Neighbourhood.search (b : Neighbourhood) (whole : Int) : List Nat → Decimal
  | [] => ⟨0, 0⟩
  | k :: ks =>
    match b.nearest? (whole - k) with
    | some d => d
    | none => b.search whole ks

def shortest (x : Float) : Decimal :=
  if significand x = 0 then ⟨0, 0⟩
  else
    let b := neighbourhood x
    b.search b.wholeDigits (List.range' 1 17)

def Decimal.trim : Nat → Decimal → Decimal
  | 0, d => d
  | n + 1, d => if d.digits ≠ 0 ∧ d.digits % 10 = 0 then trim n ⟨d.digits / 10, d.exponent + 1⟩ else d

end CachedCalls.Number
