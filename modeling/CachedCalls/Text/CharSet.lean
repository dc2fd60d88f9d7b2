set_option autoImplicit false

namespace CachedCalls.Text

abbrev CharSet := List Nat

/-- From a point on, membership is the opposite of what the later points say. -/
def CharSet.covers : CharSet → Nat → Bool
  | [], _ => false
  | p :: ps, n => decide (p ≤ n) && !CharSet.covers ps n

end CachedCalls.Text
