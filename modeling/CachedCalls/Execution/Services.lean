import CachedCalls.Cache.Map
import CachedCalls.Execution.Component
import CachedCalls.Expr.Compiled

/-!
What a call needs from its surroundings. Every service acts on a state of which a call knows
nothing, so that a call is described once for all caches, evaluators and methods.
-/

set_option autoImplicit false

namespace CachedCalls

structure CacheRef where
  place : Nat
  name : String
  deriving DecidableEq

/-- Metadata may come from an operation of the same description. A cache that is asked for a value
    either answers it at once or has it loaded between `begin` and `finish`. -/
structure Services (σ : Type) where
  metadata : Operation → Method → TypeDecl → EStateM ConfigFault σ Metadata
  metadata_description : ∀ {o m t d} {s s' : σ}, metadata o m t s = .ok d s' →
    d.operation.description = o.description
  find : ManagerRef → String → σ → Option CacheRef × σ
  test : Expr.Use → Element → String → Scope → EStateM ExprError σ Bool
  key : Element → String → Scope → EStateM ExprError σ Value
  get : CacheRef → Key → EStateM CacheError σ (Option Value)
  put : CacheRef → Key → Value → EStateM CacheError σ Unit
  evict : CacheRef → Key → EStateM CacheError σ Unit
  evictIfPresent : CacheRef → Key → EStateM CacheError σ Bool
  clear : CacheRef → EStateM CacheError σ Unit
  invalidate : CacheRef → EStateM CacheError σ Bool
  begin : CacheRef → Key → σ → Begun × σ
  finish : CacheRef → Key → Nat → Except String Value → EStateM CacheError σ Value

/-- The value of a key, loaded if the cache asks for that. -/
def Services.compute {σ : Type} (sv : Services σ) (c : CacheRef) (k : Key)
    (load : EStateM String σ Value) : EStateM CacheError σ Value := fun s =>
  match sv.begin c k s with
  | (.answered (.ok v), s) => .ok v s
  | (.answered (.error e), s) => .error e s
  | (.load i, s) =>
    match load s with
    | .ok v s => sv.finish c k i (.ok v) s
    | .error e s => sv.finish c k i (.error e) s

abbrev Act (σ α : Type) := EStateM CallError σ α

inductive Access where
  | get (c : CacheRef) (k : Key)
  | put (c : CacheRef) (k : Key) (v : Value)
  | evict (c : CacheRef) (k : Key)
  | clear (c : CacheRef)

/-- What becomes of a failed access: the error that ends the call, or nothing. A handler may keep
    account of what it is given. -/
abbrev ErrorHandler (σ : Type) := Access → CacheError → EStateM CacheError σ Unit

namespace ErrorHandler

variable {σ : Type}

def rethrow : ErrorHandler σ := fun _ e => throw e

def swallow : ErrorHandler σ := fun _ _ => pure ()

def ofMode : ErrorMode → ErrorHandler σ
  | .rethrow => rethrow
  | .log => swallow

/-- An access whose failure goes to the handler; one that is passed over gives `a`. -/
def guard {α : Type} (h : ErrorHandler σ) (acc : Access) (a : α) (x : EStateM CacheError σ α) :
    Act σ α := fun s =>
  match x s with
  | .ok b s => .ok b s
  | .error e s =>
    match h acc e s with
    | .ok _ s => .ok a s
    | .error e s => .error (.cache e) s

end ErrorHandler

end CachedCalls
