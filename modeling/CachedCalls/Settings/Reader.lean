import CachedCalls.Number.Layout
import CachedCalls.Number.Literal
import CachedCalls.Settings.Basic
import CachedCalls.Text.Casing
import CachedCalls.Value.Basic

/-!
Settings read from values, in two ways. In both, what is missing takes its default and what is
unknown is passed over. The strict way refuses a value of the wrong kind; the lenient way converts
what can be converted.
-/

set_option autoImplicit false

namespace CachedCalls

/-- How single parts are read. A record is an object or a list of its fields in their order. -/
structure SettingsReader where
  record : List String → Value → Option (List (String × Value))
  bool : Value → Option Bool
  text : Value → Option String
  word : Value → Option Nat
  choice : Value → Option String

namespace SettingsReader

def strict : SettingsReader where
  record names v :=
    match v with
    | .obj fs => some fs
    | .arr vs => if vs.length ≤ names.length then some (names.zip vs) else none
    | _ => none
  bool v :=
    match v with
    | .bool b => some b
    | _ => none
  text v :=
    match v with
    | .str s => some s
    | _ => none
  word v :=
    match v with
    | .int n => if 0 ≤ n then some n.toNat else none
    | _ => none
  choice v :=
    match v with
    | .str s => some s
    | .obj [(s, .null)] => some s
    | _ => none

def boolOfText? (s : String) : Option Bool :=
  if s ∈ ["1", "true", "on", "yes"] then some true
  else if s ∈ ["0", "false", "off", "no"] then some false
  else none

def wordOfText? (s : String) : Option Nat :=
  if Text.lower s ∈ ["true", "on", "yes"] then some 1
  else if Text.lower s ∈ ["false", "off", "no"] then some 0
  else Number.word? s.toList

/-- A number counts as true unless it is zero, and a truth value as one or zero; words may be in
    any case. -/
def lenient : SettingsReader where
  record names v :=
    match v with
    | .obj fs => some fs
    | .arr vs => some (names.zip vs)
    | _ => none
  bool v :=
    match v with
    | .bool b => some b
    | .int n => some (n != 0)
    | .float x => some (x != 0.0)
    | .str s => boolOfText? (Text.lower s)
    | _ => none
  text v :=
    match v with
    | .str s => some s
    | .bool b => some (if b then "true" else "false")
    | .int n => some (toString n)
    | .float x => some (Number.settingLayout.write x)
    | _ => none
  word v :=
    match v with
    | .bool b => some b.toNat
    | .int n => if 0 ≤ n then some n.toNat else none
    | .float x => some (Number.roundToWord x)
    | .str s => wordOfText? s
    | _ => none
  choice v :=
    match v with
    | .str s => some (Text.lower s)
    | .obj [(s, _)] => some (Text.lower s)
    | _ => none

def field {α : Type} (fs : List (String × Value)) (n : String) (d : α) (read : Value → Option α) :
    Option α :=
  match Value.field? n fs with
  | some v => read v
  | none => some d

variable (r : SettingsReader)

def texts : Value → Option (List String)
  | .arr vs => vs.mapM r.text
  | _ => none

def errorMode (v : Value) : Option ErrorMode :=
  match r.choice v with
  | some "rethrow" => some .rethrow
  | some "log" => some .log
  | _ => none

def bounded (v : Value) : Option BoundedSettings := do
  let fs ← r.record ["max_capacity", "time_to_live_seconds"] v
  let d : BoundedSettings := {}
  some {
    maxCapacity := ← field fs "max_capacity" d.maxCapacity r.word
    timeToLive := ← field fs "time_to_live_seconds" d.timeToLive r.word }

def manager (v : Value) : Option ManagerSettings := do
  let fs ←
    r.record ["enabled", "backend", "allow_null_values", "dynamic", "cache_names", "moka"] v
  let d : ManagerSettings := {}
  some {
    enabled := ← field fs "enabled" d.enabled r.bool
    backend := ← field fs "backend" d.backend r.text
    allowNull := ← field fs "allow_null_values" d.allowNull r.bool
    dynamic := ← field fs "dynamic" d.dynamic r.bool
    cacheNames := ← field fs "cache_names" d.cacheNames r.texts
    bounded := ← field fs "moka" d.bounded r.bounded }

def settings (v : Value) : Option Settings := do
  let fs ← r.record ["public_methods_only", "error_handler", "cache_manager"] v
  let d : Settings := {}
  some {
    publicOnly := ← field fs "public_methods_only" d.publicOnly r.bool
    errorMode := ← field fs "error_handler" d.errorMode r.errorMode
    manager := ← field fs "cache_manager" d.manager r.manager }

end SettingsReader

end CachedCalls
