set_option autoImplicit false

namespace CachedCalls.Text

def opens : List Char → List Char → Bool
  | [], _ => true
  | _ :: _, [] => false
  | p :: ps, c :: cs => p == c && opens ps cs

def occursIn (p : List Char) : List Char → Bool
  | [] => p.isEmpty
  | c :: cs => opens p (c :: cs) || occursIn p cs

def startsWith (s p : String) : Bool := opens p.toList s.toList

def endsWith (s p : String) : Bool := opens p.toList.reverse s.toList.reverse

def contains (s p : String) : Bool := occursIn p.toList s.toList

end CachedCalls.Text
