import CachedCalls.Manager.Basic
import CachedCalls.Settings.Basic

set_option autoImplicit false

namespace CachedCalls

namespace ManagerSettings

variable {σ : Type} [BoundedStore σ]

def kind (s : ManagerSettings) : CacheKind :=
  if s.enabled = false then .none_
  else if s.backend ∈ ["concurrent_map", "map", "memory"] then .map
  else if s.backend ∈ ["moka", "in-memory"] then .bounded s.bounded
  else .none_

/-- Names alone do not make a manager static, and neither does asking for it without names. -/
def isStatic (s : ManagerSettings) : Bool := !s.dynamic && !s.cacheNames.isEmpty

/-- A manager of one kind of caches, which has a cache for each of the names. -/
def start (s : ManagerSettings) (kind : CacheKind) (allowNull : Bool) (h : Heap σ) :
    Option (Manager × Heap σ) :=
  if s.isStatic then Manager.static kind allowNull s.cacheNames h
  else Manager.findAll s.cacheNames (.dynamic kind allowNull) h

/-- There is no manager if the library refuses the bounds of a cache that it begins with. -/
def build (s : ManagerSettings) (h : Heap σ) : Option (Manager × Heap σ) :=
  match s.kind with
  | .map => do
    let (m, h) ← s.start .map true h
    m.setAllowNull s.allowNull h
  | .bounded b => s.start (.bounded b) s.allowNull h
  | _ => some (.nothing, h)

end ManagerSettings

/-- What `filled` lists are entries that are stored before `allowNull` is decided on. -/
inductive Blueprint where
  | map (names : Option (List String)) (filled : List (String × Key × Value))
      (allowNull : Option Bool)
  | bounded (names : Option (List String)) (allowNull : Bool) (bounds : BoundedSettings)
  | nothing
  | composite (parts : List Blueprint) (fallback : Bool)
  | configured (s : ManagerSettings)

namespace Blueprint

variable {σ : Type} [BoundedStore σ]

def leaf (kind : CacheKind) (allowNull : Bool) (names : Option (List String)) (h : Heap σ) :
    Option (Manager × Heap σ) :=
  match names with
  | some ns => Manager.static kind allowNull ns h
  | none => some (.dynamic kind allowNull, h)

def fill (m : Manager) (h : Heap σ) : List (String × Key × Value) → Manager × Heap σ
  | [] => (m, h)
  | (n, k, v) :: rest =>
    match m.find n h with
    | (.cache i, m, h) =>
      match (h[i]?).map fun c => Backend.put c k v with
      | some (.ok c) => fill m (h.set i c) rest
      | _ => fill m h rest
    | (_, m, h) => fill m h rest

mutual

def build : Blueprint → Heap σ → Option (Manager × Heap σ)
  | map names filled allowNull, h => do
    let (m, h) ← leaf .map true names h
    let (m, h) := fill m h filled
    match allowNull with
    | some b => m.setAllowNull b h
    | none => some (m, h)
  | bounded names allowNull bounds, h => leaf (.bounded bounds) allowNull names h
  | nothing, h => some (.nothing, h)
  | composite parts fallback, h => do
    let (ms, h) ← buildAll parts h
    some (.composite (if fallback then ms ++ [.nothing] else ms), h)
  | configured s, h => s.build h

def buildAll : List Blueprint → Heap σ → Option (List Manager × Heap σ)
  | [], h => some ([], h)
  | b :: bs, h => do
    let (m, h) ← build b h
    let (ms, h) ← buildAll bs h
    some (m :: ms, h)

end

def isMap : Blueprint → Bool
  | map _ _ _ => true
  | _ => false

end Blueprint

end CachedCalls
