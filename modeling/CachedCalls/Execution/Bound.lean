import CachedCalls.Execution.Services

set_option autoImplicit false

namespace CachedCalls

structure Bound where
  metadata : Metadata
  target : Target
  args : List Value
  caches : List CacheRef
  caches_ne : caches ≠ []

structure Call (σ : Type) where
  target : Target
  method : Method
  args : List Value
  invoke : EStateM String σ Value

variable {σ : Type}

/-- The arguments of a variadic method, a list at the end being spread out. -/
def spread (m : Method) (args : List Value) : List Value :=
  match m.varargs, args.getLast? with
  | true, some (.arr vs) => args.dropLast ++ vs
  | _, _ => args

namespace Services

def findAll (sv : Services σ) (m : ManagerRef) (op : String) : List String → Act σ (List CacheRef)
  | [] => pure []
  | n :: ns => fun s =>
    match sv.find m n s with
    | (some c, s) => ((c :: ·) <$> sv.findAll m op ns) s
    | (none, s) => .error (.configuration (.unknownCache n op)) s

def bind (sv : Services σ) (call : Call σ) (args : List Value) (o : Operation) : Act σ Bound := do
  let d ← (sv.metadata o call.method call.target.type).adaptExcept .configuration
  let names := d.resolver.fixed.getD d.operation.cacheNames
  let caches ← sv.findAll d.resolver.manager d.operation.description names
  if h : caches = [] then throw (.configuration (.noCaches d.operation.description))
  else pure ⟨d, call.target, args, caches, h⟩

def bindAll (sv : Services σ) (call : Call σ) (args : List Value) :
    List Operation → Act σ (List Bound)
  | [] => pure []
  | o :: os => do
    let b ← sv.bind call args o
    let bs ← sv.bindAll call args os
    pure (b :: bs)

end Services

namespace Bound

def operation (b : Bound) : Operation := b.metadata.operation

def scope (b : Bound) (r : ResultState) : Scope where
  method := b.metadata.method
  implementation := b.metadata.implementation
  target := b.target
  args := b.args
  caches := b.caches.map (·.name)
  result := r

def test (sv : Services σ) (b : Bound) (r : ResultState) : EStateM ExprError σ Bool :=
  match b.operation.condition with
  | none => pure true
  | some c => sv.test .condition b.metadata.element c (b.scope r)

def passes (sv : Services σ) (b : Bound) (r : ResultState) : Act σ Bool :=
  (b.test sv r).adaptExcept .expression

def allows (sv : Services σ) (b : Bound) (r : ResultState) : Act σ Bool :=
  match b.operation.kind.veto with
  | none => pure true
  | some u => do
    let vetoed ← (sv.test .unless_ b.metadata.element u (b.scope r)).adaptExcept .expression
    pure !vetoed

def drawKey (sv : Services σ) (b : Bound) (r : ResultState) : Act σ Key :=
  match b.operation.key with
  | some e => Key.plain <$> (sv.key b.metadata.element e (b.scope r)).adaptExcept .expression
  | none => pure (b.metadata.generator b.target b.metadata.method b.args)

/-- The key, which must not be null. -/
def key (sv : Services σ) (b : Bound) (r : ResultState) : Act σ Key := do
  let k ← b.drawKey sv r
  if k.isNull then throw (.nullKey b.operation.description) else pure k

end Bound

end CachedCalls
