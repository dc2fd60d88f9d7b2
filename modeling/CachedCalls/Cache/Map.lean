import CachedCalls.Cache.Entries
import CachedCalls.Cache.Error
import CachedCalls.Cache.Flight

/-!
The cache that keeps its entries in a map and lets callers that miss the same key load it one after
the other. The functions below are single steps on what the callers share; `begin` and `finish` are
the steps that one caller takes before and after its load.
-/

set_option autoImplicit false

namespace CachedCalls

structure MapCache where
  name : String
  allowNull : Bool
  entries : Entries := []
  flights : Flights := {}

namespace MapCache

def storable (allowNull : Bool) (cache : String) (v : Value) : Except CacheError Unit :=
  if v.isNull ∧ allowNull = false then .error (.nullRefused cache) else .ok ()

def check (c : MapCache) (v : Value) : Except CacheError Unit := storable c.allowNull c.name v

def get (c : MapCache) (k : Key) : Option Value := c.entries.get? k

def insert (c : MapCache) (k : Key) (v : Value) : MapCache :=
  { c with entries := c.entries.put k v }

def put (c : MapCache) (k : Key) (v : Value) : Except CacheError MapCache :=
  (c.check v).map fun _ => c.insert k v

def putIfAbsent (c : MapCache) (k : Key) (v : Value) :
    Except CacheError (Option Value × MapCache) :=
  (c.check v).map fun _ =>
    match c.get k with
    | some w => (some w, c)
    | none => (none, c.insert k v)

def evict (c : MapCache) (k : Key) : MapCache := { c with entries := c.entries.erase k }

def evictIfPresent (c : MapCache) (k : Key) : Bool × MapCache := ((c.get k).isSome, c.evict k)

def clear (c : MapCache) : MapCache := { c with entries := [] }

def invalidate (c : MapCache) : Bool × MapCache := (!c.entries.isEmpty, c.clear)

def enter (c : MapCache) (k : Key) : Nat × MapCache :=
  let (i, fs) := c.flights.enter k
  (i, { c with flights := fs })

/-- Nothing if the lock is taken. -/
def lock (c : MapCache) (i : Nat) : Option MapCache :=
  if c.flights.isLocked i then none else some { c with flights := c.flights.setLocked i true }

def mark (c : MapCache) (i : Nat) (who : Option Nat) : MapCache :=
  { c with flights := c.flights.setLoader i who }

/-- What was loaded is kept if it may be; it replaces what came to the key meanwhile. -/
def keep (c : MapCache) (k : Key) : Except String Value → Outcome × MapCache
  | .error e => (.error (.notLoaded k e), c)
  | .ok v =>
    match c.put k v with
    | .ok c => (.ok v, c)
    | .error e => (.error e, c)

def leave (c : MapCache) (k : Key) (i : Nat) : MapCache :=
  { c with flights := c.flights.leave k i }

def unlock (c : MapCache) (i : Nat) : MapCache :=
  { c with flights := c.flights.setLocked i false }

def letGo (c : MapCache) (i : Nat) : MapCache := { c with flights := c.flights.letGo i }

def depart (c : MapCache) (k : Key) (i : Nat) : MapCache := ((c.leave k i).unlock i).letGo i

end MapCache

/-- How a caller stands before its load: it has its answer, or it has to load under a flight. -/
inductive Begun where
  | answered (o : Outcome)
  | load (flight : Nat)

def soleCaller : Nat := 0

namespace MapCache

def begin (c : MapCache) (k : Key) : Begun × MapCache :=
  match c.get k with
  | some v => (.answered (.ok v), c)
  | none =>
    let (i, c) := c.enter k
    if c.flights.loader? i = some soleCaller then
      (.answered (.error (.recursive c.name k)), c.letGo i)
    else
      match c.lock i with
      | none => (.answered (.error (.deadlock c.name)), c)
      | some c =>
        match c.get k with
        | some v => (.answered (.ok v), c.depart k i)
        | none => (.load i, c.mark i (some soleCaller))

def finish (c : MapCache) (k : Key) (i : Nat) (loaded : Except String Value) :
    Outcome × MapCache :=
  let (o, c) := (c.mark i none).keep k loaded
  (o, c.depart k i)

end MapCache

end CachedCalls
