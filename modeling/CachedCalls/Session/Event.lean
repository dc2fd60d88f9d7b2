import CachedCalls.Execution.Services

set_option autoImplicit false

namespace CachedCalls

inductive AccessName where
  | get
  | put
  | evict
  | evictIfPresent
  | clear
  | invalidate
  | compute
  deriving DecidableEq

def AccessName.text : AccessName → String
  | get => "get"
  | put => "put"
  | evict => "evict"
  | evictIfPresent => "evict_if_present"
  | clear => "clear"
  | invalidate => "invalidate"
  | compute => "get_or_compute"

inductive Effect where
  | found (v : Option Value)
  | stored (v : Value)
  | done
  | truth (b : Bool)
  | value (v : Value)
  | failed (e : CacheError)

def Effect.ofOutcome : Outcome → Effect
  | .ok v => value v
  | .error e => failed e

/-- The event `computing` comes before a load, whose own events come before its access. -/
inductive Event where
  | invoked
  | computing (cache : String) (k : Key)
  | access (what : AccessName) (cache : String) (k : Option Key) (e : Effect)

abbrev Faults := List (String × List AccessName)

namespace Faults

def strike? (fs : Faults) (cache : String) (what : AccessName) : Option CacheError :=
  if ((List.lookup cache fs).getD []).contains what then
    some (.backend cache (what.text ++ " failed"))
  else none

end Faults

end CachedCalls
