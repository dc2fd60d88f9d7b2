import CachedCalls.Cache.Error
import CachedCalls.Expr.Error
import CachedCalls.Operation.Draft
import CachedCalls.Settings.Basic

set_option autoImplicit false

namespace CachedCalls

inductive ComponentKind where
  | keyGenerator
  | resolver
  | manager
  deriving DecidableEq

def ComponentKind.text : ComponentKind → String
  | keyGenerator => "key generator"
  | resolver => "cache resolver"
  | manager => "cache manager"

inductive ConfigFault where
  | operation (f : OperationFault)
  | missing (kind : ComponentKind) (name : String)
  | unknownCache (name operation : String)
  | noCaches (operation : String)
  | syncCombined (method : String)
  | syncTwice (method : String)
  | syncManyCaches (operation : String)
  | syncUnless (operation : String)
  | noSource
  | noResolver
  deriving DecidableEq

def ConfigFault.message : ConfigFault → String
  | operation f => f.message
  | missing k n => "No " ++ k.text ++ " named '" ++ n ++ "' is registered"
  | unknownCache n o => "Cannot find cache named '" ++ n ++ "' for " ++ o
  | noCaches o =>
    "No cache could be resolved for '" ++ o ++
      "' using resolver '...'. At least one cache should be provided per cache operation."
  | syncCombined m =>
    "A sync=true operation cannot be combined with other cache operations on '" ++ m ++ "'"
  | syncTwice m => "Only one sync=true operation is allowed on '" ++ m ++ "'"
  | syncManyCaches o => "A sync=true operation only allows a single cache on '" ++ o ++ "'"
  | syncUnless o =>
    "A sync=true operation does not support the unless attribute on '" ++ o ++ "'"
  | noSource => "An operation source is required"
  | noResolver => "No cache resolver specified and no cache manager to build one from"

/-- An `invocation` is the method's own failure, passed on as it is. -/
inductive CallError where
  | invocation (reason : String)
  | cache (e : CacheError)
  | configuration (f : ConfigFault)
  | expression (e : ExprError)
  | nullKey (operation : String)
  | settings (e : SettingsError)
  deriving DecidableEq

namespace CallError

def message : CallError → String
  | invocation r => r
  | cache e => "Cache error: " ++ e.message
  | configuration f => "Configuration error: " ++ f.message
  | expression e => "Expression error: " ++ e.message
  | nullKey o => "Invalid argument: Null key returned for cache operation " ++ o
  | settings e => e.message

def isConfiguration : CallError → Bool
  | configuration _ => true
  | settings _ => true
  | _ => false

end CallError

end CachedCalls
