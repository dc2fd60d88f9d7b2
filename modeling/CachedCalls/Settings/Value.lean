import CachedCalls.Settings.Basic
import CachedCalls.Value.Basic

set_option autoImplicit false

namespace CachedCalls

def ErrorMode.text : ErrorMode → String
  | rethrow => "rethrow"
  | log => "log"

def BoundedSettings.toValue (b : BoundedSettings) : Value :=
  .record [("max_capacity", .ofNat b.maxCapacity), ("time_to_live_seconds", .ofNat b.timeToLive)]

def ManagerSettings.toValue (m : ManagerSettings) : Value :=
  .record [
    ("enabled", .bool m.enabled), ("backend", .str m.backend),
    ("allow_null_values", .bool m.allowNull), ("dynamic", .bool m.dynamic),
    ("cache_names", .strs m.cacheNames), ("moka", m.bounded.toValue)]

def Settings.toValue (s : Settings) : Value :=
  .record [
    ("public_methods_only", .bool s.publicOnly), ("error_handler", .str s.errorMode.text),
    ("cache_manager", s.manager.toValue)]

end CachedCalls
