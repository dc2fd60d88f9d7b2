import CachedCalls.Execution.Error
import CachedCalls.Operation.Basic

set_option autoImplicit false

namespace CachedCalls

abbrev ManagerRef := Option String

/-- Finds the caches of an operation with a manager: those that it names, unless the names are
    fixed. -/
structure Resolver where
  manager : ManagerRef
  fixed : Option (List String) := none

inductive Component where
  | keyGenerator (g : KeyGenerator)
  | resolver (r : Resolver)
  | manager (m : ManagerRef)

structure Components where
  generators : List (String × KeyGenerator) := []
  resolvers : List (String × Resolver) := []
  managers : List (String × ManagerRef) := []

namespace Components

def standard : Components := { generators := [("simpleKeyGenerator", .simple)] }

def register (cs : Components) (n : String) : Component → Components
  | .keyGenerator g => { cs with generators := (n, g) :: cs.generators }
  | .resolver r => { cs with resolvers := (n, r) :: cs.resolvers }
  | .manager m => { cs with managers := (n, m) :: cs.managers }

def named {α : Type} (kind : ComponentKind) (n : String) (as : List (String × α)) :
    Except ConfigFault α :=
  match as.lookup n with
  | some a => .ok a
  | none => .error (.missing kind n)

def generator (cs : Components) (n : String) : Except ConfigFault KeyGenerator :=
  named .keyGenerator n cs.generators

def resolver (cs : Components) (n : String) : Except ConfigFault Resolver :=
  named .resolver n cs.resolvers

def manager (cs : Components) (n : String) : Except ConfigFault ManagerRef :=
  named .manager n cs.managers

def look (cs : Components) (n : String) : ComponentKind → Except ConfigFault Unit
  | .keyGenerator => (cs.generator n).map fun _ => ()
  | .resolver => (cs.resolver n).map fun _ => ()
  | .manager => (cs.manager n).map fun _ => ()

end Components

/-- What calls go by if an operation says nothing else. -/
structure Wiring where
  generator : KeyGenerator := .simple
  resolver : Resolver
  components : Components := .standard

/-- An operation on a method, with the components it uses. `implementation` is the method that is
    run, and `element` stands for it on the type of the target. -/
structure Metadata where
  operation : Operation
  method : Method
  implementation : Method
  element : Element
  generator : KeyGenerator
  resolver : Resolver

namespace Wiring

/-- A resolver by name comes before a manager by name. -/
def resolverFor (w : Wiring) (o : Operation) : Except ConfigFault Resolver :=
  match o.resolver, o.manager with
  | some n, _ => w.components.resolver n
  | none, some n => (w.components.manager n).map fun m => { manager := m }
  | none, none => .ok w.resolver

def generatorFor (w : Wiring) (o : Operation) : Except ConfigFault KeyGenerator :=
  match o.keyGenerator with
  | some n => w.components.generator n
  | none => .ok w.generator

def metadata (w : Wiring) (o : Operation) (m : Method) (t : TypeDecl) :
    Except ConfigFault Metadata := do
  let g ← w.generatorFor o
  let r ← w.resolverFor o
  let impl := t.mostSpecific m
  pure ⟨o, m, impl, impl.element t, g, r⟩

theorem metadata_operation {w : Wiring} {o : Operation} {m : Method} {t : TypeDecl} {d : Metadata}
    (h : w.metadata o m t = .ok d) : d.operation = o := by
  unfold metadata at h
  cases hg : w.generatorFor o with
  | error e => rw [hg] at h; cases h
  | ok g =>
    cases hr : w.resolverFor o with
    | error e => rw [hg, hr] at h; cases h
    | ok r => rw [hg, hr] at h; cases h; rfl

end Wiring

/-- Metadata by the element of the method called. An operation finds what was kept for one of the
    same description. -/
abbrev MetadataMemo := List (Element × Metadata)

namespace MetadataMemo

def find? (k : MetadataMemo) (o : Operation) (el : Element) : Option Metadata :=
  (List.find? (fun e => decide (e.1 = el ∧ e.2.operation.description = o.description)) k).map (·.2)

/-- What is kept, else what the wiring gives, which is kept from now on unless it is a failure. -/
def ask (k : MetadataMemo) (w : Wiring) (o : Operation) (m : Method) (t : TypeDecl) :
    Except ConfigFault Metadata × MetadataMemo :=
  match k.find? o (m.element t) with
  | some d => (.ok d, k)
  | none =>
    match w.metadata o m t with
    | .ok d => (.ok d, (m.element t, d) :: k)
    | .error e => (.error e, k)

theorem find?_description {k : MetadataMemo} {o : Operation} {el : Element} {d : Metadata}
    (h : k.find? o el = some d) : d.operation.description = o.description := by
  obtain ⟨e, he, rfl⟩ := Option.map_eq_some_iff.1 h
  have hp := List.find?_some he
  simp only [decide_eq_true_eq] at hp
  exact hp.2

theorem ask_description {k : MetadataMemo} {w : Wiring} {o : Operation} {m : Method} {t : TypeDecl}
    {d : Metadata} (h : (k.ask w o m t).1 = .ok d) :
    d.operation.description = o.description := by
  unfold ask at h
  split at h
  · next hf =>
    cases h
    exact find?_description hf
  · split at h
    · next hm =>
      cases h
      rw [Wiring.metadata_operation hm]
    · cases h

end MetadataMemo

end CachedCalls
