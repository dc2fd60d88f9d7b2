import CachedCalls.Number.Shortest

set_option autoImplicit false

namespace CachedCalls.Number

/-- Between `plainFrom` and `plainBelow` are the decimal exponents of the leading digit that are
    written positionally; `wholeMark` follows a positional number without a fraction. -/
structure Layout where
  plainFrom : Option Int
  plainBelow : Option Int
  wholeMark : List Char

def Layout.isPlain (l : Layout) (e : Int) : Bool :=
  l.plainFrom.all (fun b => decide (b ≤ e)) && l.plainBelow.all (fun b => decide (e < b))

/-- Numbers from `0.00001` up to sixteen digits stand without an exponent and always show a point,
    so a float never reads as a whole number. -/
def valueLayout : Layout := ⟨some (-5), some 16, ['.', '0']⟩

def settingLayout : Layout := ⟨none, none, []⟩

def zeros (n : Nat) : List Char := List.replicate n '0'

def positional (mark : List Char) (ds : List Char) (whole : Int) : List Char :=
  if whole ≤ 0 then '0' :: '.' :: zeros (-whole).toNat ++ ds
  else if (ds.length : Int) ≤ whole then ds ++ zeros (whole.toNat - ds.length) ++ mark
  else ds.take whole.toNat ++ '.' :: ds.drop whole.toNat

def exponential (ds : List Char) (e : Int) : List Char :=
  ds.take 1 ++ (if ds.length ≤ 1 then [] else '.' :: ds.drop 1) ++
    'e' :: (if e < 0 then '-' else '+') :: Nat.toDigits 10 e.natAbs

def Layout.magnitude (l : Layout) (d : Decimal) : List Char :=
  if d.digits = 0 then '0' :: l.wholeMark
  else
    let t := d.trim 20
    let ds := Nat.toDigits 10 t.digits
    let whole := t.exponent + ds.length
    if l.isPlain (whole - 1) then positional l.wholeMark ds whole else exponential ds (whole - 1)

def Layout.chars (l : Layout) (x : Float) : List Char :=
  if x.isNaN then ['N', 'a', 'N']
  else
    (if isNegative x then ['-'] else []) ++
      if x.isFinite then l.magnitude (shortest x) else ['i', 'n', 'f']

def Layout.write (l : Layout) (x : Float) : String := String.ofList (l.chars x)

end CachedCalls.Number
