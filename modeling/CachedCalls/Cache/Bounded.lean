import CachedCalls.Cache.Map
import CachedCalls.Settings.Basic

/-!
The cache that is bounded in size. It keeps its entries in a store of a library, which may drop some
of them when there are too many or they are too old; what it adds is its name and what it does about
nulls. It loads through one primitive of the store, which keeps exactly what a load gave.
-/

set_option autoImplicit false

namespace CachedCalls

/-- What a bounded cache asks of its store. -/
class BoundedStore (σ : Type) where
  empty : σ
  /-- A new store for so many entries that live so many seconds. The library may refuse to build it,
      which ends the program. -/
  build : Nat → Option Nat → Option σ
  get : σ → Key → Option Value
  put : σ → Key → Value → σ
  /-- The value that the key then has, and whether it was put just now. -/
  putIfAbsent : σ → Key → Value → (Value × Bool) × σ
  /-- What a load gave for a key that was missed, as its caller gets it. -/
  takeLoaded : {ε : Type} → σ → Key → Except ε Value → Except ε Value × σ
  erase : σ → Key → σ
  remove : σ → Key → Option Value × σ
  clear : σ → σ
  first? : σ → Option (Key × Value)
  /-- Does what was put off until later. -/
  settle : σ → σ

/-- The longest time to live of a store: 1000 years, in seconds. -/
def longestLife : Nat := 1000 * 365 * 24 * 60 * 60

/-- What is documented of the library and not of its bounds: which stores it builds, that they are
    empty, and that a load ends for its caller as it ended. -/
class DocumentedStore (σ : Type) [BoundedStore σ] : Prop where
  isSome_build : ∀ (capacity : Nat) (life : Option Nat),
    (BoundedStore.build capacity life : Option σ).isSome = true ↔ life.getD 0 ≤ longestLife
  get_build : ∀ (capacity : Nat) (life : Option Nat) (s : σ),
    BoundedStore.build capacity life = some s → ∀ k, BoundedStore.get s k = none
  takeLoaded_fst : ∀ (ε : Type) (s : σ) (k : Key) (r : Except ε Value),
    (BoundedStore.takeLoaded s k r).1 = r

instance : BoundedStore Entries where
  empty := []
  build _ life := if life.getD 0 ≤ longestLife then some [] else none
  get := Entries.get?
  put := Entries.put
  putIfAbsent es k v :=
    match es.get? k with
    | some w => ((w, false), es)
    | none => ((v, true), es.put k v)
  takeLoaded es k
    | .ok v => (.ok v, es.put k v)
    | .error e => (.error e, es)
  erase := Entries.erase
  remove es k := (es.get? k, es.erase k)
  clear _ := []
  first? es := es.head?
  settle es := es

instance : DocumentedStore Entries where
  isSome_build _ life := by
    change (if life.getD 0 ≤ longestLife then some ([] : Entries) else none).isSome = true ↔ _
    split <;> simp_all
  get_build _ life s h k := by
    change (if life.getD 0 ≤ longestLife then some ([] : Entries) else none) = some s at h
    split at h <;> cases h
    rfl
  takeLoaded_fst _ _ _ r := by cases r <;> rfl

structure BoundedCache (σ : Type) where
  name : String
  allowNull : Bool
  store : σ

namespace BoundedCache

variable {σ : Type} [BoundedStore σ]

def ofSettings (name : String) (bounds : BoundedSettings) (allowNull : Bool) :
    Option (BoundedCache σ) :=
  (BoundedStore.build bounds.maxCapacity bounds.expiry?).map (⟨name, allowNull, ·⟩)

def get (c : BoundedCache σ) (k : Key) : Option Value := BoundedStore.get c.store k

def put (c : BoundedCache σ) (k : Key) (v : Value) : Except CacheError (BoundedCache σ) :=
  (MapCache.storable c.allowNull c.name v).map fun _ =>
    { c with store := BoundedStore.put c.store k v }

def putIfAbsent (c : BoundedCache σ) (k : Key) (v : Value) :
    Except CacheError (Option Value × BoundedCache σ) :=
  (MapCache.storable c.allowNull c.name v).map fun _ =>
    let ((w, fresh), s) := BoundedStore.putIfAbsent c.store k v
    (if fresh then none else some w, { c with store := s })

def evict (c : BoundedCache σ) (k : Key) : BoundedCache σ :=
  { c with store := BoundedStore.erase c.store k }

def evictIfPresent (c : BoundedCache σ) (k : Key) : Bool × BoundedCache σ :=
  let (v, s) := BoundedStore.remove c.store k
  (v.isSome, { c with store := s })

def clear (c : BoundedCache σ) : BoundedCache σ :=
  { c with store := BoundedStore.clear c.store }

def invalidate (c : BoundedCache σ) : Bool × BoundedCache σ :=
  ((BoundedStore.first? c.store).isSome,
    { c with store := BoundedStore.settle (BoundedStore.clear c.store) })

inductive LoadFault where
  | failed (reason : String)
  | null

def judge (allowNull : Bool) : Except String Value → Except LoadFault Value
  | .error e => .error (.failed e)
  | .ok v => if v.isNull ∧ allowNull = false then .error .null else .ok v

def LoadFault.error (cache : String) (k : Key) : LoadFault → CacheError
  | failed e => .notLoaded k e
  | null => .nullRefused cache

def begin (c : BoundedCache σ) (k : Key) : Begun × BoundedCache σ :=
  match BoundedStore.get c.store k with
  | some v => (.answered (.ok v), c)
  | none => (.load 0, c)

def finish (c : BoundedCache σ) (k : Key) (loaded : Except String Value) :
    Outcome × BoundedCache σ :=
  let (r, s) := BoundedStore.takeLoaded c.store k (judge c.allowNull loaded)
  (r.mapError (LoadFault.error c.name k), { c with store := s })

end BoundedCache

end CachedCalls
