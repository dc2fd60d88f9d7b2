import CachedCalls.Execution.Plan

/-!
The execution of a call: evictions that come before it, the search for a value in the caches, the
method unless a value was found and no put wants a new one, the puts, and the evictions that come
after it.
-/

set_option autoImplicit false

namespace CachedCalls

/-- A value to store once there is one. -/
structure Request where
  bound : Bound
  key : Key

/-- How the search for a value ends. Where none was found, it is to be stored where it was missed. -/
inductive Search where
  | hit (v : Value)
  | missed (rs : List Request)

abbrev Verdict := Bound × Option Bool

namespace Call

variable {σ : Type} (sv : Services σ) (h : ErrorHandler σ)

def invoked (call : Call σ) : Act σ Value := call.invoke.adaptExcept .invocation

def clearOne (immediate : Bool) (c : CacheRef) : Act σ Unit :=
  h.guard (.clear c) () (if immediate then do discard (sv.invalidate c) else sv.clear c)

def evictOne (immediate : Bool) (k : Key) (c : CacheRef) : Act σ Unit :=
  h.guard (.evict c k) () (if immediate then do discard (sv.evictIfPresent c k) else sv.evict c k)

def evict (r : ResultState) (e : Eviction) : Act σ Unit := do
  if ← e.bound.passes sv r then
    if e.allEntries then e.bound.caches.forM (clearOne sv h e.before)
    else do
      let k ← e.bound.key sv r
      e.bound.caches.forM (evictOne sv h e.before k)

def evictAll (before : Bool) (r : ResultState) (es : List Eviction) : Act σ Unit :=
  (es.filter (·.before == before)).forM (evict sv h r)

def firstHit (k : Key) : List CacheRef → Act σ (Option Value)
  | [] => pure none
  | c :: cs => do
    match ← h.guard (.get c k) none (sv.get c k) with
    | some v => pure (some v)
    | none => firstHit k cs

def search : List Bound → Act σ Search
  | [] => pure (.missed [])
  | b :: bs => do
    if ← b.passes sv .unset then
      let k ← b.key sv .unset
      match ← firstHit sv h k b.caches with
      | some v => pure (.hit v)
      | none =>
        match ← search bs with
        | .hit v => pure (.hit v)
        | .missed rs => pure (.missed (⟨b, k⟩ :: rs))
    else search bs

/-- The condition of a put before there is a result; one that asks for the result is left open. -/
def verdict (b : Bound) : Act σ Verdict := fun s =>
  match b.test sv .pending s with
  | .ok p s => .ok (b, some p) s
  | .error (.notAvailable _) s => .ok (b, none) s
  | .error e s => .error (.expression e) s

def verdicts : List Bound → Act σ (List Verdict)
  | [] => pure []
  | b :: bs => do
    let v ← verdict sv b
    let vs ← verdicts bs
    pure (v :: vs)

/-- A put counts unless its condition is known to fail. -/
def effective (v : Verdict) : Bool := v.2 != some false

def settle (r : ResultState) : Verdict → Act σ Bool
  | (_, some p) => pure p
  | (b, none) => b.passes sv r

/-- The puts whose conditions hold, those still open being decided by the result. -/
def requests (r : ResultState) : List Verdict → Act σ (List Request)
  | [] => pure []
  | v :: vs => do
    if ← settle sv r v then
      let k ← v.1.key sv r
      let rs ← requests r vs
      pure (⟨v.1, k⟩ :: rs)
    else requests r vs

def putOne (k : Key) (v : Value) (c : CacheRef) : Act σ Unit :=
  h.guard (.put c k v) () (sv.put c k v)

def store (v : Value) (rq : Request) : Act σ Unit := do
  if ← rq.bound.allows sv (.available v) then rq.bound.caches.forM (putOne sv h rq.key v)

/-- A value that was found, or one from the method if some put counts. -/
def renew (call : Call σ) (vs : List Verdict) (v : Value) : Act σ Value :=
  if vs.any effective then call.invoked else pure v

/-- The value of the call together with what is to be stored. -/
def gather (call : Call σ) (reads puts : List Bound) (evictions : List Eviction) :
    Act σ (Value × List Request) := do
  evictAll sv h true .unset evictions
  match ← search sv h reads with
  | .hit v => do
    let vs ← verdicts sv puts
    let v ← call.renew vs v
    let rs ← requests sv (.available v) vs
    pure (v, rs)
  | .missed missed => do
    let v ← call.invoked
    let rs ← requests sv (.available v) (puts.map (·, none))
    pure (v, missed ++ rs)

def commit (evictions : List Eviction) (v : Value) (rs : List Request) : Act σ Value := do
  rs.forM (store sv h v)
  evictAll sv h false (.available v) evictions
  pure v

def runPhased (call : Call σ) (reads puts : List Bound) (evictions : List Eviction) :
    Act σ Value := do
  let (v, rs) ← gather sv h call reads puts evictions
  commit sv h evictions v rs

def loadError : CacheError → CallError
  | .notLoaded _ r => .invocation r
  | e => .cache e

def runSingle (call : Call σ) (b : Bound) (c : CacheRef) : Act σ Value := do
  if ← b.passes sv .unset then
    let k ← b.key sv .unset
    (sv.compute c k call.invoke).adaptExcept loadError
  else call.invoked

def run (call : Call σ) : Plan → Act σ Value
  | .single b c => runSingle sv call b c
  | .phased reads puts evictions => runPhased sv h call reads puts evictions

def plan (call : Call σ) (ops : List Operation) : Act σ Plan := do
  let bs ← sv.bindAll call (spread call.method call.args) ops
  match Plan.ofBounds call.method.text bs with
  | .ok p => pure p
  | .error f => throw (.configuration f)

/-- Without operations the method is simply called. -/
def execute (call : Call σ) (ops : List Operation) : Act σ Value :=
  if ops.isEmpty then call.invoked
  else do
    let p ← plan sv call ops
    run sv h call p

end Call

end CachedCalls
