import CachedCalls.Key

set_option autoImplicit false

namespace CachedCalls

/-- The number `holders` counts the table as well as the callers. -/
structure Flight where
  locked : Bool := false
  loader : Option Nat := none
  holders : Nat
  deriving DecidableEq

structure Flights where
  fresh : Nat := 0
  table : List (Key × Nat) := []
  live : List (Nat × Flight) := []
  deriving DecidableEq

namespace Flights

def find? (fs : Flights) (k : Key) : Option Nat :=
  (fs.table.find? (fun e => decide (e.1 = k))).map (·.2)

def flight? (fs : Flights) (i : Nat) : Option Flight := fs.live.lookup i

def modify (fs : Flights) (i : Nat) (f : Flight → Flight) : Flights :=
  { fs with live := fs.live.map fun e => if e.1 = i then (e.1, f e.2) else e }

def enter (fs : Flights) (k : Key) : Nat × Flights :=
  match fs.find? k with
  | some i => (i, fs.modify i fun f => { f with holders := f.holders + 1 })
  | none =>
    (fs.fresh, ⟨fs.fresh + 1, (k, fs.fresh) :: fs.table, (fs.fresh, { holders := 2 }) :: fs.live⟩)

def loader? (fs : Flights) (i : Nat) : Option Nat := (fs.flight? i).bind (·.loader)

def setLoader (fs : Flights) (i : Nat) (who : Option Nat) : Flights :=
  fs.modify i fun f => { f with loader := who }

def isLocked (fs : Flights) (i : Nat) : Bool := ((fs.flight? i).map (·.locked)).getD false

def setLocked (fs : Flights) (i : Nat) (b : Bool) : Flights :=
  fs.modify i fun f => { f with locked := b }

/-- Takes the flight out of the table if nobody but the table and one caller holds it. -/
def leave (fs : Flights) (k : Key) (i : Nat) : Flights :=
  if fs.find? k = some i ∧ (fs.flight? i).map (·.holders) = some 2 then
    let fs := fs.modify i fun f => { f with holders := f.holders - 1 }
    { fs with table := fs.table.filter fun e => decide (e.1 ≠ k) }
  else fs

/-- Lets go of the flight, which ends with its last holder. -/
def letGo (fs : Flights) (i : Nat) : Flights :=
  let fs := fs.modify i fun f => { f with holders := f.holders - 1 }
  { fs with live := fs.live.filter fun e => decide (e.1 = i → e.2.holders ≠ 0) }

end Flights

end CachedCalls
