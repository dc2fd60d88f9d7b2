import CachedCalls.Operation.Basic
import CachedCalls.Text.Blank
import CachedCalls.Text.Names

set_option autoImplicit false

namespace CachedCalls

inductive KindAttribute where
  | unless_
  | sync
  | allEntries
  | beforeInvocation
  deriving DecidableEq

def KindAttribute.text : KindAttribute → String
  | unless_ => "unless"
  | sync => "sync"
  | allEntries => "all_entries"
  | beforeInvocation => "before_invocation"

inductive OperationFault where
  | unsupported (element : String) (what : KindAttribute) (kind : String)
  | keyTwice (element : String)
  | cachesTwice (element : String)
  deriving DecidableEq

def elementText (name : String) : String := if name.isEmpty then "<unnamed>" else name

def OperationFault.message : OperationFault → String
  | unsupported e a k =>
    "Invalid cache operation on '" ++ elementText e ++ "': '" ++ a.text ++
      "' is not supported on " ++ k ++ " operations"
  | keyTwice e =>
    "Invalid cache operation on '" ++ elementText e ++
      "'. Both 'key' and 'key_generator' are set; set either the key expression or the name of the key generator"
  | cachesTwice e =>
    "Invalid cache operation on '" ++ elementText e ++
      "'. Both 'cache_manager' and 'cache_resolver' are set; a cache manager only configures the default resolver"

/-- An operation in the making, with the first attribute set that its kind does not have. -/
structure Draft where
  name : String
  cacheNames : List String
  key : Option String
  keyGenerator : Option String
  manager : Option String
  resolver : Option String
  condition : Option String
  kind : OperationKind
  misuse : Option KindAttribute
  deriving DecidableEq

inductive Setting where
  | name (s : String)
  | cacheNames (ns : List String)
  | key (s : String)
  | keyGenerator (s : String)
  | manager (s : String)
  | resolver (s : String)
  | condition (s : String)
  | unless_ (s : String)
  | sync (b : Bool)
  | allEntries (b : Bool)
  | beforeInvocation (b : Bool)
  deriving DecidableEq

structure Defaults where
  cacheNames : List String := []
  keyGenerator : Option String := none
  manager : Option String := none
  resolver : Option String := none
  deriving DecidableEq

namespace Draft

def ofKind (k : OperationKind) : Draft := ⟨"", [], none, none, none, none, none, k, none⟩

def cacheable : Draft := ofKind (.cacheable none false)

def put : Draft := ofKind (.put none)

def evict : Draft := ofKind (.evict false false)

/-- Only the first misuse is remembered. -/
def misused (d : Draft) (a : KindAttribute) : Draft := { d with misuse := d.misuse.or (some a) }

/-- A blank text unsets its attribute; the name alone is taken as it is. -/
def set (d : Draft) : Setting → Draft
  | .name s => { d with name := s }
  | .cacheNames ns => { d with cacheNames := distinct ns }
  | .key s => { d with key := Text.nonBlank s }
  | .keyGenerator s => { d with keyGenerator := Text.nonBlank s }
  | .manager s => { d with manager := Text.nonBlank s }
  | .resolver s => { d with resolver := Text.nonBlank s }
  | .condition s => { d with condition := Text.nonBlank s }
  | .unless_ s =>
    match d.kind with
    | .cacheable _ y => { d with kind := .cacheable (Text.nonBlank s) y }
    | .put _ => { d with kind := .put (Text.nonBlank s) }
    | .evict _ _ => d.misused .unless_
  | .sync b =>
    match d.kind with
    | .cacheable u _ => { d with kind := .cacheable u b }
    | _ => d.misused .sync
  | .allEntries b =>
    match d.kind with
    | .evict _ y => { d with kind := .evict b y }
    | _ => d.misused .allEntries
  | .beforeInvocation b =>
    match d.kind with
    | .evict x _ => { d with kind := .evict x b }
    | _ => d.misused .beforeInvocation

def setAll (d : Draft) (ss : List Setting) : Draft := ss.foldl set d

/-- Cache names are inherited by a draft without any, the key generator by one that says nothing
    of its key, and of resolver and manager one, the resolver first, by a draft that sets
    neither. -/
def inherit (d : Draft) (f : Defaults) : Draft :=
  { d with
    cacheNames := if d.cacheNames.isEmpty then distinct f.cacheNames else d.cacheNames
    keyGenerator :=
      if d.key.isNone && d.keyGenerator.isNone then f.keyGenerator else d.keyGenerator
    resolver := if d.manager.isNone && d.resolver.isNone then f.resolver else d.resolver
    manager :=
      if d.manager.isNone && d.resolver.isNone && f.resolver.isNone then f.manager else d.manager }

def build (d : Draft) : Except OperationFault Operation :=
  match d.misuse with
  | some a => .error (.unsupported d.name a d.kind.label)
  | none =>
    if d.key.isSome && d.keyGenerator.isSome then .error (.keyTwice d.name)
    else if d.manager.isSome && d.resolver.isSome then .error (.cachesTwice d.name)
    else
      .ok ⟨d.name, d.cacheNames, d.key, d.keyGenerator, d.manager, d.resolver, d.condition, d.kind⟩

end Draft

end CachedCalls
