import CachedCalls.Cache.Step
import CachedCalls.Manager.Blueprint

set_option autoImplicit false

namespace CachedCalls.Manager

inductive Step where
  | get (name : String)
  | names
  | isDynamic
  | known (name : String)
  | same (a b : String)
  | on (name : String) (steps : List Cache.Step)

inductive Answer where
  | nothing
  | cache (name provider : String)
  | names (ns : List String)
  | truth (b : Bool)
  | size (entries : Nat) (allowNull : Bool)
  | answers (as : List Cache.Answer)
  | refused

variable {σ : Type} [BoundedStore σ]

/-- Here `isMap` tells whether the manager is known to be one of maps, which alone says whether it
    is dynamic and shows its caches. -/
def Step.run (isMap : Bool) (s : Step) (m : Manager) (h : Heap σ) : Answer × Manager × Heap σ :=
  match s with
  | get n =>
    let (f, m, h) := m.find n h
    match f with
    | .cache i =>
      match h[i]? with
      | some c => (.cache (Backend.name c) (Backend.provider c), m, h)
      | none => (.nothing, m, h)
    | .nothing => (.nothing, m, h)
    | .refused => (.refused, m, h)
  | names => (.names m.names, m, h)
  | isDynamic => (if isMap then .truth m.isDynamic else .nothing, m, h)
  | known n =>
    match if isMap then ((m.known? n).bind (h[·]?)).bind Backend.map? else none with
    | some c => (.size c.entries.length c.allowNull, m, h)
    | none => (.nothing, m, h)
  | same a b =>
    let (f, m, h) := m.find a h
    let (g, m, h) := m.find b h
    match f, g with
    | .refused, _ | _, .refused => (.refused, m, h)
    | .cache i, .cache j => (.truth (i == j), m, h)
    | _, _ => (.nothing, m, h)
  | on n steps =>
    let (f, m, h) := m.find n h
    match f with
    | .cache i =>
      match h[i]? with
      | some c =>
        let (as, c) := Cache.Step.runAll steps c
        (.answers as, m, h.set i c)
      | none => (.nothing, m, h)
    | .nothing => (.nothing, m, h)
    | .refused => (.refused, m, h)

def Step.runAll (isMap : Bool) : List Step → Manager → Heap σ → List Answer
  | [], _, _ => []
  | s :: ss, m, h =>
    let (a, m, h) := s.run isMap m h
    a :: Step.runAll isMap ss m h

end CachedCalls.Manager
