import CachedCalls.Cache.Basic

/-!
Callers that race for values of one map. Each caller goes from stage to stage, one step on the
shared cache at a time, and the steps of different callers may come in any order.
-/

set_option autoImplicit false

namespace CachedCalls

namespace Race

/-- What a caller is about to do; `i` is the flight it holds. -/
inductive Stage where
  | start
  | missed
  | entered (i : Nat)
  | waiting (i : Nat)
  | locked (i : Nat)
  | ready (i : Nat)
  | loading (i : Nat)
  | loaded (i : Nat) (l : Except String Value)
  | keeping (i : Nat) (l : Except String Value)
  | leaving (i : Nat) (o : Outcome)
  | unlocking (i : Nat) (o : Outcome)
  | lettingGo (i : Nat) (o : Outcome)
  | done (o : Outcome)

namespace Stage

def isLoading : Stage → Bool
  | loading _ => true
  | _ => false

def outcome? : Stage → Option Outcome
  | done o => some o
  | _ => none

def rank : Stage → Nat
  | start => 12
  | missed => 11
  | entered _ => 10
  | waiting _ => 9
  | locked _ => 8
  | ready _ => 7
  | loading _ => 6
  | loaded _ _ => 5
  | keeping _ _ => 4
  | leaving _ _ => 3
  | unlocking _ _ => 2
  | lettingGo _ _ => 1
  | done _ => 0

/-- One step of the caller `me`. There is none while it waits for the lock, while its load runs and
    once it is done. -/
def advance (me : Nat) (k : Key) (s : Stage) (c : MapCache) : Option (Stage × MapCache) :=
  match s with
  | start =>
    match c.get k with
    | some v => some (done (.ok v), c)
    | none => some (missed, c)
  | missed =>
    let (i, c) := c.enter k
    some (entered i, c)
  | entered i =>
    if c.flights.loader? i = some me then some (lettingGo i (.error (.recursive c.name k)), c)
    else some (waiting i, c)
  | waiting i => (c.lock i).map fun c => (locked i, c)
  | locked i =>
    match c.get k with
    | some v => some (leaving i (.ok v), c)
    | none => some (ready i, c)
  | ready i => some (loading i, c.mark i (some me))
  | loading _ => none
  | loaded i l => some (keeping i l, c.mark i none)
  | keeping i l =>
    let (o, c) := c.keep k l
    some (leaving i o, c)
  | leaving i o => some (unlocking i o, c.leave k i)
  | unlocking i o => some (lettingGo i o, c.unlock i)
  | lettingGo i o => some (done o, c.letGo i)
  | done _ => none

def endLoad (l : Except String Value) : Stage → Option Stage
  | loading i => some (loaded i l)
  | _ => none

end Stage

structure Caller where
  key : Key
  stage : Stage := .start

end Race

structure Race where
  cache : MapCache
  callers : List Race.Caller

namespace Race

def loading (r : Race) : Nat := (r.callers.filter (·.stage.isLoading)).length

def place (r : Race) (me : Nat) (c : Caller) (s : Stage) : Race :=
  { r with callers := r.callers.set me { c with stage := s } }

def step? (r : Race) (me : Nat) : Option Race := do
  let c ← r.callers[me]?
  let (s, cache) ← c.stage.advance me c.key r.cache
  some ({ r with cache }.place me c s)

def endLoad? (r : Race) (me : Nat) (l : Except String Value) : Option Race := do
  let c ← r.callers[me]?
  let s ← c.stage.endLoad l
  some (r.place me c s)

/-- A race together with how many loads have begun and how many ran at once at most. -/
structure Run where
  race : Race
  loads : Nat := 0
  peak : Nat := 0

def Run.step (script : Nat → Except String Value) (run : Run) (me : Nat) : Run :=
  match run.race.step? me with
  | some r =>
    let now := r.loading
    { race := r, loads := if run.race.loading < now then run.loads + 1 else run.loads,
      peak := max run.peak now }
  | none =>
    match run.race.endLoad? me (script (run.loads - 1)) with
    | some r => { run with race := r }
    | none => run

/-- Each caller in turn does one step. -/
def Run.round (script : Nat → Except String Value) (run : Run) : Run :=
  (List.range run.race.callers.length).foldl (Run.step script) run

def Run.rounds (script : Nat → Except String Value) : Nat → Run → Run
  | 0, run => run
  | n + 1, run => Run.rounds script n (run.round script)

structure Report where
  outcomes : List Outcome
  loads : Nat
  peak : Option Nat
  after : Option Value

/-- So many callers of one key, the loads giving what the script says. In each round somebody moves,
    so there are enough rounds for all steps of all. -/
def ofMap (c : MapCache) (k : Key) (callers : Nat) (script : Nat → Except String Value) : Report :=
  let start : Run := { race := ⟨c, List.replicate callers { key := k }⟩ }
  let run := start.rounds script (12 * callers)
  ⟨run.race.callers.filterMap (·.stage.outcome?), run.loads, some run.peak, run.race.cache.get k⟩

def inTurn {γ : Type} [Backend γ] (c : γ) (k : Key) (script : Nat → Except String Value) :
    Nat → Nat → List Outcome × Nat × γ
  | 0, loads => ([], loads, c)
  | n + 1, loads =>
    match Backend.begin c k with
    | (.answered o, c) =>
      let (os, loads, c) := inTurn c k script n loads
      (o :: os, loads, c)
    | (.load i, c) =>
      let (o, c) := Backend.finish c k i (script loads)
      let (os, loads, c) := inTurn c k script n (loads + 1)
      (o :: os, loads, c)

/-- The bounded cache runs one load of a key at a time, and without a cache loads do not meet. -/
def report (c : Cache) (k : Key) (callers : Nat) (script : Nat → Except String Value) : Report :=
  match c with
  | .map m => ofMap m k callers script
  | .minimal m => ofMap m.map k callers script
  | .bounded b =>
    let (os, loads, b) := inTurn b k script callers 0
    ⟨os, loads, some (min 1 loads), Backend.get b k⟩
  | .none_ c =>
    let (os, loads, c) := inTurn c k script callers 0
    ⟨os, loads, none, Backend.get c k⟩

end Race

end CachedCalls
