import CachedCalls.Key

set_option autoImplicit false

namespace CachedCalls

/-- A `deadlock` is the answer to a caller that would wait for a lock of its own. -/
inductive CacheError where
  | backend (cache reason : String)
  | nullRefused (cache : String)
  | notLoaded (key : Key) (reason : String)
  | deadlock (cache : String)
  deriving DecidableEq

namespace CacheError

def recursive (cache : String) (k : Key) : CacheError :=
  backend cache ("Recursive update: loader for key '" ++ k.text ++ "' called back into the cache")

def message : CacheError → String
  | backend c r => "Cache backend error in '" ++ c ++ "': " ++ r
  | nullRefused c =>
    "Cache '" ++ c ++ "' is configured to not allow null values but null was provided"
  | notLoaded k r => "Value for key '" ++ k.text ++ "' could not be loaded: " ++ r
  | deadlock c => "Cache backend error in '" ++ c ++ "': the caller waits for itself"

end CacheError

abbrev Outcome := Except CacheError Value

end CachedCalls
