import CachedCalls.Text.Blank

set_option autoImplicit false

namespace CachedCalls

inductive ErrorMode where
  | rethrow
  | log
  deriving DecidableEq

/-- Entries never expire when their time to live is zero. -/
structure BoundedSettings where
  maxCapacity : Nat := 10000
  timeToLive : Nat := 0
  deriving DecidableEq

structure ManagerSettings where
  enabled : Bool := true
  backend : String := "concurrent_map"
  allowNull : Bool := true
  dynamic : Bool := true
  cacheNames : List String := []
  bounded : BoundedSettings := {}
  deriving DecidableEq

structure Settings where
  publicOnly : Bool := true
  errorMode : ErrorMode := .rethrow
  manager : ManagerSettings := {}
  deriving DecidableEq

def BoundedSettings.expiry? (b : BoundedSettings) : Option Nat :=
  if b.timeToLive = 0 then none else some b.timeToLive

inductive SettingsError where
  | notFound (path : String)
  | unreadable
  | noPlace (path : String)
  | blankBackend (backend : String)
  | staticWithoutNames
  | blankCacheName (name : String)
  | noCapacity
  deriving DecidableEq

namespace SettingsError

def invalid (field value context : String) : String :=
  "Invalid value '" ++ value ++ "' for field '" ++ field ++ "': " ++ context

def message : SettingsError → String
  | notFound p => "Configuration file not found: " ++ p
  | unreadable => "Failed to build configuration"
  | noPlace p => "No list has the place that '" ++ p ++ "' names"
  | blankBackend b => invalid "cache_manager.backend" b "backend must not be empty"
  | staticWithoutNames =>
    "Configuration validation failed: cache_manager.dynamic = false requires at least one entry in cache_manager.cache_names"
  | blankCacheName n => invalid "cache_manager.cache_names" n "cache names must not be blank"
  | noCapacity => invalid "cache_manager.moka.max_capacity" "0" "capacity must be positive"

end SettingsError

namespace Settings

def fault? (s : Settings) : Option SettingsError :=
  if Text.isBlank s.manager.backend then some (.blankBackend s.manager.backend)
  else if s.manager.dynamic = false ∧ s.manager.cacheNames = [] then some .staticWithoutNames
  else
    match s.manager.cacheNames.find? Text.isBlank with
    | some n => some (.blankCacheName n)
    | none => if s.manager.bounded.maxCapacity = 0 then some .noCapacity else none

def validate (s : Settings) : Except SettingsError Settings :=
  match s.fault? with
  | some e => .error e
  | none => .ok s

end Settings

end CachedCalls
