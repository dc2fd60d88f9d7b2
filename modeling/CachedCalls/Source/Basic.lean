import CachedCalls.Source.Fallback
import CachedCalls.Source.Pattern

set_option autoImplicit false

namespace CachedCalls

inductive Source where
  | fallback (f : Fallback)
  | patterns (ps : Patterns)

namespace Source

def ask (m : Method) (t : TypeDecl) : Source → List Operation × Source
  | fallback f =>
    let (os, f) := f.ask m t
    (os, fallback f)
  | patterns ps => (ps.ask m.name, patterns ps)

def clear : Source → Source
  | fallback f => fallback f.clear
  | patterns ps => patterns ps

def memoized? : Source → Option Nat
  | fallback f => some f.memoized
  | patterns _ => none

def askAll (m : Method) (t : TypeDecl) : List Source → List Operation × List Source
  | [] => ([], [])
  | s :: ss =>
    let (os, s) := s.ask m t
    let (os', ss) := askAll m t ss
    (os ++ os', s :: ss)

end Source

inductive SourceEntry where
  | declaration (d : Declaration)
  | pattern (p : String) (ops : List Draft)

namespace Source

/-- A source takes only entries of its own kind. -/
def enter (e : SourceEntry) : Source → Except OperationFault Source
  | fallback f =>
    match e with
    | .declaration d => (f.declared.declare d).map fun d => fallback { f with declared := d }
    | .pattern _ _ => .ok (fallback f)
  | patterns ps =>
    match e with
    | .pattern p ops => (ps.add p ops).map patterns
    | .declaration _ => .ok (patterns ps)

end Source

end CachedCalls
