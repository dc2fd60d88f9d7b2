import CachedCalls.Execution.Run
import CachedCalls.Manager.Blueprint
import CachedCalls.Session.Event
import CachedCalls.Source.Basic

set_option autoImplicit false

namespace CachedCalls

/-- What is `nested` are the answers given while the method ran, if it ran and asked for any. -/
inductive Answer where
  | call (result : Except CallError Value) (log : List Event) (nested : Option (List Answer))
  | names (ns : List String)
  | count (n : Nat)
  | counts (ns : List (Option Nat))
  | done
  | failed (e : CallError)
  | refused (e : CacheError)
  | noCache
  | found (v : Option Value)
  | contents (cs : List (String × List (Key × Value)))

/-- The latest comes first in `log` and `named`; the latter are the keys mentioned with a cache.
    A quiet world logs no accesses to caches. `inner` are the answers of the method run last.
    `refused` tells that a library refused to build a cache: there the program ended, and what the
    world has become since is of no account. -/
structure World where
  managers : List (ManagerRef × Manager)
  heap : Heap
  sources : List Source
  wiring : Wiring
  handler : ErrorMode
  faults : Faults := []
  quiet : Bool := false
  metadata : MetadataMemo := []
  compiled : Compiled := []
  log : List Event := []
  named : List (String × Key) := []
  inner : Option (List Answer) := none
  refused : Bool := false

namespace World

def name (w : World) (cache : String) (k : Key) : World :=
  if (cache, k) ∈ w.named then w else { w with named := (cache, k) :: w.named }

def tell (w : World) (e : Event) : World := { w with log := e :: w.log }

def note (w : World) (what : AccessName) (cache : String) (k : Option Key) (e : Effect) : World :=
  if w.quiet then w
  else
    let w := w.tell (.access what cache k e)
    match k with
    | some k => w.name cache k
    | none => w

def cache (w : World) (c : CacheRef) : Cache := (w.heap[c.place]?).getD (.none_ ⟨c.name⟩)

def setCache (w : World) (c : CacheRef) (x : Cache) : World :=
  { w with heap := w.heap.set c.place x }

def find (r : ManagerRef) (n : String) (w : World) : Option CacheRef × World :=
  match w.managers.lookup r with
  | none => (none, w)
  | some m =>
    let (f, m, h) := m.find n w.heap
    (f.cache?.map (⟨·, n⟩),
      { w with
        managers := w.managers.map fun e => if e.1 = r then (r, m) else e
        heap := h
        refused := w.refused || decide (f = .refused) })

/-- An access ends as its fault or its cache says, and is noted. -/
def access {α : Type} (what : AccessName) (c : CacheRef) (k : Option Key) (shown : α → Effect)
    (f : Cache → Except CacheError (α × Cache)) : EStateM CacheError World α := fun w =>
  let r :=
    match w.faults.strike? c.name what with
    | some e => Except.error e
    | none => f (w.cache c)
  match r with
  | .ok (a, x) => .ok a ((w.setCache c x).note what c.name k (shown a))
  | .error e => .error e (w.note what c.name k (.failed e))

def begin (c : CacheRef) (k : Key) (w : World) : Begun × World :=
  let w := if w.quiet then w else (w.tell (.computing c.name k)).name c.name k
  let (b, w) :=
    match w.faults.strike? c.name .compute with
    | some e => (Begun.answered (.error e), w)
    | none =>
      let (b, x) := Backend.begin (w.cache c) k
      (b, w.setCache c x)
  match b with
  | .answered o => (b, w.note .compute c.name (some k) (.ofOutcome o))
  | .load _ => (b, w)

def finish (c : CacheRef) (k : Key) (i : Nat) (loaded : Except String Value) :
    EStateM CacheError World Value := fun w =>
  let (o, x) := Backend.finish (w.cache c) k i loaded
  let w := (w.setCache c x).note .compute c.name (some k) (.ofOutcome o)
  match o with
  | .ok v => .ok v w
  | .error e => .error e w

def withCompiled {α : Type} (f : Compiled → Except ExprError α × Compiled) :
    EStateM ExprError World α := fun w =>
  match f w.compiled with
  | (.ok a, c) => .ok a { w with compiled := c }
  | (.error e, c) => .error e { w with compiled := c }

def askMetadata (o : Operation) (m : Method) (t : TypeDecl) : EStateM ConfigFault World Metadata :=
  fun w =>
    match w.metadata.ask w.wiring o m t with
    | (.ok d, k) => .ok d { w with metadata := k }
    | (.error e, k) => .error e { w with metadata := k }

theorem askMetadata_description {o : Operation} {m : Method} {t : TypeDecl} {d : Metadata}
    {w w' : World} (h : askMetadata o m t w = .ok d w') :
    d.operation.description = o.description := by
  unfold askMetadata at h
  split at h
  · next hask =>
    cases h
    exact MetadataMemo.ask_description (congrArg Prod.fst hask)
  · cases h

def services : Services World where
  metadata := askMetadata
  metadata_description := askMetadata_description
  find := find
  test u el t s := withCompiled fun c => c.test u el t s
  key el t s := withCompiled fun c => c.value .key el t s
  get c k := access .get c (some k) .found fun x => .ok (Backend.get x k, x)
  put c k v :=
    access .put c (some k) (fun _ => .stored v) fun x => (Backend.put x k v).map fun x => ((), x)
  evict c k := access .evict c (some k) (fun _ => .done) fun x => .ok ((), Backend.evict x k)
  evictIfPresent c k :=
    access .evictIfPresent c (some k) .truth fun x => .ok (Backend.evictIfPresent x k)
  clear c := access .clear c none (fun _ => .done) fun x => .ok ((), Backend.clear x)
  invalidate c := access .invalidate c none .truth fun x => .ok (Backend.invalidate x)
  begin := begin
  finish := finish

def operations (w : World) (m : Method) (t : TypeDecl) : List Operation × World :=
  let (os, ss) := Source.askAll m t w.sources
  (os, { w with sources := ss })

def execute (call : Call World) (ops : List Operation) : Act World Value := fun w =>
  call.execute services (.ofMode w.handler) ops w

/-- A call with the operations of the sources. -/
def call (call : Call World) : Act World Value := fun w =>
  let (os, w) := w.operations call.method call.target.type
  execute call os w

/-- Forgets all that was kept to be found faster. -/
def clearMetadata (w : World) : World :=
  { w with sources := w.sources.map Source.clear, metadata := [], compiled := [] }

end World

end CachedCalls
