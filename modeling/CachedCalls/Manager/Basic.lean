import CachedCalls.Cache.Basic
import CachedCalls.Text.Names

/-!
Managers, which find caches by name. A dynamic manager makes a cache when it is first asked for;
a composite asks its parts in order. The caches themselves lie in a heap, so that a manager and
whoever got a cache from it mean the same cache.
-/

set_option autoImplicit false

namespace CachedCalls

/-- A cache is known by its place. -/
abbrev Heap (σ : Type := Entries) := List (Cache σ)

inductive Manager where
  | leaf (kind : CacheKind) (dynamic : Bool) (allowNull : Bool) (caches : List (String × Nat))
  | composite (parts : List Manager)

/-- How asking for a cache ends. The program ends if the library refuses the bounds of a cache that
    has to be made. -/
inductive Finding where
  | cache (i : Nat)
  | nothing
  | refused
  deriving DecidableEq

def Finding.cache? : Finding → Option Nat
  | cache i => some i
  | nothing | refused => none

namespace Manager

variable {σ : Type} [BoundedStore σ]

def add (kind : CacheKind) (allowNull : Bool) (n : String) (caches : List (String × Nat))
    (h : Heap σ) : Option (List (String × Nat) × Heap σ) :=
  (kind.fresh n allowNull).map fun c => (fileUnder n h.length caches, h ++ [c])

mutual

/-- The cache of this name, with the manager and the heap after asking. -/
def find (n : String) : Manager → Heap σ → Finding × Manager × Heap σ
  | leaf kind dynamic allowNull caches, h =>
    match caches.lookup n with
    | some i => (.cache i, leaf kind dynamic allowNull caches, h)
    | none =>
      if dynamic then
        match add kind allowNull n caches h with
        | some (caches, h') => (.cache h.length, leaf kind dynamic allowNull caches, h')
        | none => (.refused, leaf kind dynamic allowNull caches, h)
      else (.nothing, leaf kind dynamic allowNull caches, h)
  | composite parts, h =>
    let (f, parts, h) := findFirst n parts h
    (f, composite parts, h)

/-- Parts after the one that knows the name are not asked. -/
def findFirst (n : String) : List Manager → Heap σ → Finding × List Manager × Heap σ
  | [], h => (.nothing, [], h)
  | m :: ms, h =>
    match find n m h with
    | (.nothing, m, h) =>
      let (f, ms, h) := findFirst n ms h
      (f, m :: ms, h)
    | (f, m, h) => (f, m :: ms, h)

end

mutual

def names : Manager → List String
  | leaf _ _ _ caches => caches.map (·.1)
  | composite parts => distinct (namesAll parts)

def namesAll : List Manager → List String
  | [] => []
  | m :: ms => names m ++ namesAll ms

end

def findAll (ns : List String) (m : Manager) (h : Heap σ) : Option (Manager × Heap σ) :=
  ns.foldlM (fun (m, h) n =>
    match find n m h with
    | (.refused, _) => none
    | (_, r) => some r) (m, h)

def known? (n : String) : Manager → Option Nat
  | leaf _ _ _ caches => caches.lookup n
  | composite _ => none

def isDynamic : Manager → Bool
  | leaf _ dynamic _ _ => dynamic
  | composite _ => false

def addAll (kind : CacheKind) (allowNull : Bool) (ns : List String)
    (caches : List (String × Nat)) (h : Heap σ) : Option (List (String × Nat) × Heap σ) :=
  ns.foldlM (fun (cs, h) n => add kind allowNull n cs h) (caches, h)

/-- A manager with the caches of these names, which makes no others. -/
def static (kind : CacheKind) (allowNull : Bool) (ns : List String) (h : Heap σ) :
    Option (Manager × Heap σ) :=
  (addAll kind allowNull ns [] h).map fun (cs, h) => (leaf kind false allowNull cs, h)

def dynamic (kind : CacheKind) (allowNull : Bool) : Manager := leaf kind true allowNull []

def nothing : Manager := dynamic .none_ true

/-- A change of what may be stored replaces all caches by empty ones. -/
def setAllowNull (allow : Bool) : Manager → Heap σ → Option (Manager × Heap σ)
  | leaf kind dyn allowNull cs, h =>
    if allow = allowNull then some (leaf kind dyn allowNull cs, h)
    else
      (addAll kind allow (cs.map (·.1)) cs h).map fun (cs, h) => (leaf kind dyn allow cs, h)
  | composite parts, h => some (composite parts, h)

end Manager

end CachedCalls
