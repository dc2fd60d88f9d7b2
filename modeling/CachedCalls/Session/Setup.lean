import CachedCalls.Session.World

set_option autoImplicit false

namespace CachedCalls

structure SourceSetup where
  source : Source
  entries : List SourceEntry

/-- A `resolver` goes before a resolver of the default manager. -/
structure Setup where
  managers : List (ManagerRef × Blueprint)
  sources : List SourceSetup
  generator : KeyGenerator := .simple
  resolver : Option Resolver := none
  components : Components := .standard
  handler : ErrorMode := .rethrow
  faults : Faults := []
  quiet : Bool := false

namespace SourceSetup

def enterAll : Source → List SourceEntry → List (Option OperationFault) × Source
  | s, [] => ([], s)
  | s, e :: es =>
    match s.enter e with
    | .ok s =>
      let (rs, s) := enterAll s es
      (none :: rs, s)
    | .error f =>
      let (rs, s) := enterAll s es
      (some f :: rs, s)

def build (s : SourceSetup) : List (Option OperationFault) × Source := enterAll s.source s.entries

end SourceSetup

namespace Setup

def buildManagers : List (ManagerRef × Blueprint) → Heap →
    Option (List (ManagerRef × Manager) × Heap)
  | [], h => some ([], h)
  | (r, b) :: bs, h => do
    let (m, h) ← b.build h
    let (ms, h) ← buildManagers bs h
    some ((r, m) :: ms, h)

def resolver? (s : Setup) : Option Resolver :=
  match s.resolver with
  | some r => some r
  | none => if s.managers.any (fun e => decide (e.1 = none)) then some { manager := none } else none

/-- What came of the entries, and the world unless something is missing. There is neither if a
    library refuses to build a cache of the managers. -/
def build (s : Setup) : Option (List (Option OperationFault) × Except CallError World) := do
  let (ms, h) ← buildManagers s.managers []
  let built := s.sources.map (·.build)
  let world :=
    if built.isEmpty then .error (.configuration .noSource)
    else
      match s.resolver? with
      | none => .error (.configuration .noResolver)
      | some r =>
        .ok {
          managers := ms
          heap := h
          sources := built.map (·.2)
          wiring := ⟨s.generator, r, s.components⟩
          handler := s.handler
          faults := s.faults
          quiet := s.quiet }
  some (built.flatMap (·.1), world)

/-- A session put together as the settings say, unless they are refused. -/
def ofSettings (s : Settings) (entries : List SourceEntry) :
    Option (List (Option OperationFault) × Except CallError World) :=
  let source : SourceSetup := ⟨.fallback { publicOnly := s.publicOnly }, entries⟩
  match s.fault? with
  | some e => some (source.build.1, .error (.settings e))
  | none => build {
      managers := [(none, .configured s.manager)]
      sources := [source]
      handler := s.errorMode
      quiet := true }

end Setup

end CachedCalls
