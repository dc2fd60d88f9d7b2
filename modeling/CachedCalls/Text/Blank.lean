import CachedCalls.Text.CharSet

set_option autoImplicit false

namespace CachedCalls.Text

def whiteSpace : CharSet :=
  [9, 14, 32, 33, 133, 134, 160, 161, 5760, 5761, 8192, 8203, 8232, 8234, 8239, 8240, 8287, 8288,
   12288, 12289]

def isSpace (c : Char) : Bool := whiteSpace.covers c.toNat

def isBlank (s : String) : Bool := s.toList.all isSpace

def nonBlank (s : String) : Option String := if isBlank s then none else some s

theorem nonBlank_eq_some_iff (s t : String) : nonBlank s = some t ↔ isBlank s = false ∧ s = t := by
  unfold nonBlank
  split <;> simp_all

def trim (s : String) : String :=
  String.ofList (((s.toList.dropWhile isSpace).reverse.dropWhile isSpace).reverse)

end CachedCalls.Text
