import CachedCalls.Session.Setup

set_option autoImplicit false

namespace CachedCalls

namespace Session

/-- The steps `seed`, `peek`, `names` and `dump` go to the caches directly. -/
inductive Step where
  | call (target : Target) (method : Method) (args : List Value) (result : Except String Value)
      (ops : Option (List Draft)) (nested : List Step)
  | operations (m : Method) (t : TypeDecl)
  | metadataSize
  | clearMetadata
  | memoized
  | enter (source : Nat) (e : SourceEntry)
  | register (name : String) (c : Component)
  | look (name : String) (kind : ComponentKind)
  | seed (m : ManagerRef) (cache : String) (k : Key) (v : Value)
  | peek (m : ManagerRef) (cache : String) (k : Key)
  | names (m : ManagerRef)
  | dump (m : ManagerRef)

end Session

namespace World

def names (w : World) (r : ManagerRef) : List String :=
  ((w.managers.lookup r).map Manager.names).getD []

/-- The keys named with a cache that have a value, in the order of their notation. -/
def contents (w : World) (c : CacheRef) : List (Key × Value) :=
  let keys := (w.named.filter (·.1 == c.name)).map (·.2)
  let entries := keys.filterMap fun k => (Backend.get (w.cache c) k).map (k, ·)
  entries.mergeSort fun a b => decide (a.1.toRecord.text ≤ b.1.toRecord.text)

def dumpAll (r : ManagerRef) : List String → World → List (String × List (Key × Value)) × World
  | [], w => ([], w)
  | n :: ns, w =>
    match w.find r n with
    | (some c, w) =>
      let (cs, w) := dumpAll r ns w
      ((n, w.contents c) :: cs, w)
    | (none, w) => dumpAll r ns w

def seed (r : ManagerRef) (n : String) (k : Key) (v : Value) (w : World) : Answer × World :=
  match w.find r n with
  | (none, w) => (.noCache, w)
  | (some c, w) =>
    let w := w.name n k
    match Backend.put (w.cache c) k v with
    | .ok x => (.done, w.setCache c x)
    | .error e => (.refused e, w)

def peek (r : ManagerRef) (n : String) (k : Key) (w : World) : Answer × World :=
  match w.find r n with
  | (none, w) => (.noCache, w)
  | (some c, w) => (.found (Backend.get (w.cache c) k), w)

def enter (i : Nat) (e : SourceEntry) (w : World) : Answer × World :=
  match w.sources[i]? with
  | none => (.done, w)
  | some s =>
    match s.enter e with
    | .ok s => (.done, { w with sources := w.sources.set i s })
    | .error f => (.failed (.configuration (.operation f)), w)

def perform (c : Call World) (ops : Option (List Draft)) : Act World Value :=
  match ops with
  | none => call c
  | some ds =>
    match ds.mapM Draft.build with
    | .ok os => execute c os
    | .error f => throw (.configuration (.operation f))

def since (w : World) (length : Nat) : List Event := (w.log.take (w.log.length - length)).reverse

def answerCall (c : Call World) (ops : Option (List Draft)) (w : World) : Answer × World :=
  let start := w.log.length
  match perform c ops { w with inner := none } with
  | .ok v w => (.call (.ok v) (w.since start) w.inner, w)
  | .error e w => (.call (.error e) (w.since start) w.inner, w)

end World

namespace Session

mutual

def Step.run : Step → World → Answer × World
  | .call target method args result ops nested, w =>
    let invoke : EStateM String World Value := fun w =>
      let (as, w) := Step.runAll nested (w.tell .invoked)
      let w := { w with inner := if nested.isEmpty then none else some as }
      match result with
      | .ok v => .ok v w
      | .error e => .error e w
    w.answerCall ⟨target, method, args, invoke⟩ ops
  | .operations m t, w =>
    let (os, w) := w.operations m t
    (.names (os.map (·.description)), w)
  | .metadataSize, w => (.count w.metadata.length, w)
  | .clearMetadata, w => (.count 0, w.clearMetadata)
  | .memoized, w => (.counts (w.sources.map Source.memoized?), w)
  | .enter i e, w => w.enter i e
  | .register n c, w =>
    (.done, { w with wiring := { w.wiring with components := w.wiring.components.register n c } })
  | .look n kind, w =>
    match w.wiring.components.look n kind with
    | .ok _ => (.done, w)
    | .error f => (.failed (.configuration f), w)
  | .seed r n k v, w => w.seed r n k v
  | .peek r n k, w => w.peek r n k
  | .names r, w => (.names (w.names r), w)
  | .dump r, w =>
    let (cs, w) := World.dumpAll r (w.names r) w
    (.contents cs, w)

def Step.runAll : List Step → World → List Answer × World
  | [], w => ([], w)
  | s :: ss, w =>
    let (a, w) := Step.run s w
    let (as, w) := Step.runAll ss w
    (a :: as, w)

end

/-- The answers to a series of requests, unless the program ended on the way. -/
def answers (ss : List Step) (w : World) : Option (List Answer) :=
  let (as, w) := Step.runAll ss w
  if w.refused then none else some as

end Session

end CachedCalls
