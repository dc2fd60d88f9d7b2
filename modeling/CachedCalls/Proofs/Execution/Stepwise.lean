import CachedCalls.Execution.Run

/-!
Two executions of a call side by side, over two kinds of states. A relation that holds of each
condition and key, each access to a cache and the method holds of the executions as a whole.
-/

set_option autoImplicit false

namespace CachedCalls

variable {σ τ : Type}

/-- A relation between computations over `sv` and over `sv'` that holds of each step of a call and
    is kept by `bind`. -/
structure Stepwise (R : ∀ α : Type, Act σ α → Act τ α → Prop) (sv : Services σ)
    (h : ErrorHandler σ) (call : Call σ) (sv' : Services τ) (h' : ErrorHandler τ)
    (call' : Call τ) : Prop where
  pure : ∀ {α : Type} (a : α), R α (Pure.pure a) (Pure.pure a)
  bind : ∀ {α β : Type} {x : Act σ α} {y : Act τ α} {f : α → Act σ β} {g : α → Act τ β},
    R α x y → (∀ a, R β (f a) (g a)) → R β (x >>= f) (y >>= g)
  nullKey : ∀ o, R Key (throw (.nullKey o)) (throw (.nullKey o))
  test : ∀ u el t sc, R Bool ((sv.test u el t sc).adaptExcept .expression)
    ((sv'.test u el t sc).adaptExcept .expression)
  key : ∀ el t sc, R Value ((sv.key el t sc).adaptExcept .expression)
    ((sv'.key el t sc).adaptExcept .expression)
  verdict : ∀ b, R Verdict (Call.verdict sv b) (Call.verdict sv' b)
  get : ∀ k c, R (Option Value) (h.guard (.get c k) none (sv.get c k))
    (h'.guard (.get c k) none (sv'.get c k))
  put : ∀ k v c, R Unit (Call.putOne sv h k v c) (Call.putOne sv' h' k v c)
  evict : ∀ immediate k c, R Unit (Call.evictOne sv h immediate k c)
    (Call.evictOne sv' h' immediate k c)
  clear : ∀ immediate c, R Unit (Call.clearOne sv h immediate c) (Call.clearOne sv' h' immediate c)
  invoked : R Value call.invoked call'.invoked

namespace Stepwise

variable {R : ∀ α : Type, Act σ α → Act τ α → Prop} {sv : Services σ} {h : ErrorHandler σ}
  {call : Call σ} {sv' : Services τ} {h' : ErrorHandler τ} {call' : Call τ}
  (hR : Stepwise R sv h call sv' h' call')

include hR

theorem forM {β : Type} {f : β → Act σ Unit} {g : β → Act τ Unit} (hf : ∀ b, R Unit (f b) (g b))
    (bs : List β) : R Unit (bs.forM f) (bs.forM g) := by
  induction bs with
  | nil => exact hR.pure ()
  | cons b bs ih => exact hR.bind (hf b) fun _ => ih

theorem gated {x : Act σ Bool} {y : Act τ Bool} {f : Act σ Unit} {g : Act τ Unit}
    (hx : R Bool x y) (hf : R Unit f g) : R Unit (do if ← x then f) (do if ← y then g) := by
  refine hR.bind hx fun p => ?_
  cases p with
  | false => exact hR.pure ()
  | true => exact hf

theorem passes (b : Bound) (r : ResultState) : R Bool (b.passes sv r) (b.passes sv' r) := by
  unfold Bound.passes Bound.test
  cases b.operation.condition with
  | none => exact hR.pure true
  | some c => exact hR.test _ _ c _

theorem allows (b : Bound) (r : ResultState) : R Bool (b.allows sv r) (b.allows sv' r) := by
  unfold Bound.allows
  cases b.operation.kind.veto with
  | none => exact hR.pure true
  | some u => exact hR.bind (hR.test _ _ u _) fun p => hR.pure (!p)

theorem drawKey (b : Bound) (r : ResultState) : R Key (b.drawKey sv r) (b.drawKey sv' r) := by
  unfold Bound.drawKey
  cases b.operation.key with
  | none => exact hR.pure _
  | some e =>
    simp only [map_eq_pure_bind]
    exact hR.bind (hR.key _ e _) fun v => hR.pure (Key.plain v)

theorem keyed (b : Bound) (r : ResultState) : R Key (b.key sv r) (b.key sv' r) := by
  refine hR.bind (hR.drawKey b r) fun k => ?_
  split
  · exact hR.nullKey _
  · exact hR.pure k

theorem evictOf (r : ResultState) (e : Eviction) :
    R Unit (Call.evict sv h r e) (Call.evict sv' h' r e) := by
  refine hR.gated (hR.passes e.bound r) ?_
  cases e.allEntries with
  | true => exact hR.forM (hR.clear e.before) e.bound.caches
  | false => exact hR.bind (hR.keyed e.bound r) fun k => hR.forM (hR.evict e.before k) e.bound.caches

theorem evictAll (before : Bool) (r : ResultState) (es : List Eviction) :
    R Unit (Call.evictAll sv h before r es) (Call.evictAll sv' h' before r es) :=
  hR.forM (hR.evictOf r) _

theorem firstHit (k : Key) (cs : List CacheRef) :
    R (Option Value) (Call.firstHit sv h k cs) (Call.firstHit sv' h' k cs) := by
  induction cs with
  | nil => exact hR.pure none
  | cons c cs ih =>
    refine hR.bind (hR.get k c) fun found => ?_
    cases found with
    | some v => exact hR.pure (some v)
    | none => exact ih

theorem search (bs : List Bound) : R Search (Call.search sv h bs) (Call.search sv' h' bs) := by
  induction bs with
  | nil => exact hR.pure (Search.missed [])
  | cons b bs ih =>
    refine hR.bind (hR.passes b .unset) fun passing => ?_
    cases passing with
    | false => exact ih
    | true =>
      refine hR.bind (hR.keyed b .unset) fun k => hR.bind (hR.firstHit k b.caches) fun found => ?_
      cases found with
      | some v => exact hR.pure (Search.hit v)
      | none =>
        refine hR.bind ih fun x => ?_
        cases x with
        | hit v => exact hR.pure (Search.hit v)
        | missed rs => exact hR.pure (Search.missed (⟨b, k⟩ :: rs))

theorem verdicts (bs : List Bound) :
    R (List Verdict) (Call.verdicts sv bs) (Call.verdicts sv' bs) := by
  induction bs with
  | nil => exact hR.pure []
  | cons b bs ih => exact hR.bind (hR.verdict b) fun v => hR.bind ih fun vs => hR.pure (v :: vs)

theorem settle (r : ResultState) (v : Verdict) :
    R Bool (Call.settle sv r v) (Call.settle sv' r v) := by
  obtain ⟨b, kept⟩ := v
  cases kept with
  | none => exact hR.passes b r
  | some p => exact hR.pure p

theorem requests (r : ResultState) (vs : List Verdict) :
    R (List Request) (Call.requests sv r vs) (Call.requests sv' r vs) := by
  induction vs with
  | nil => exact hR.pure []
  | cons v vs ih =>
    refine hR.bind (hR.settle r v) fun passing => ?_
    cases passing with
    | false => exact ih
    | true => exact hR.bind (hR.keyed v.1 r) fun k => hR.bind ih fun rs => hR.pure (⟨v.1, k⟩ :: rs)

theorem store (v : Value) (rq : Request) :
    R Unit (Call.store sv h v rq) (Call.store sv' h' v rq) :=
  hR.gated (hR.allows rq.bound (.available v)) (hR.forM (hR.put rq.key v) rq.bound.caches)

theorem renew (vs : List Verdict) (v : Value) : R Value (call.renew vs v) (call'.renew vs v) := by
  unfold Call.renew
  cases vs.any Call.effective with
  | true => exact hR.invoked
  | false => exact hR.pure v

theorem gather (reads puts : List Bound) (es : List Eviction) :
    R (Value × List Request) (Call.gather sv h call reads puts es)
      (Call.gather sv' h' call' reads puts es) := by
  refine hR.bind (hR.evictAll true .unset es) fun _ => hR.bind (hR.search reads) fun x => ?_
  cases x with
  | hit v =>
    refine hR.bind (hR.verdicts puts) fun vs => hR.bind (hR.renew vs v) fun w => ?_
    exact hR.bind (hR.requests (.available w) vs) fun rs => hR.pure (w, rs)
  | missed missed =>
    refine hR.bind hR.invoked fun w => ?_
    exact hR.bind (hR.requests (.available w) _) fun rs => hR.pure (w, missed ++ rs)

theorem commit (es : List Eviction) (v : Value) (rs : List Request) :
    R Value (Call.commit sv h es v rs) (Call.commit sv' h' es v rs) :=
  hR.bind (hR.forM (hR.store v) rs) fun _ =>
    hR.bind (hR.evictAll false (.available v) es) fun _ => hR.pure v

theorem runPhased (reads puts : List Bound) (es : List Eviction) :
    R Value (Call.runPhased sv h call reads puts es)
      (Call.runPhased sv' h' call' reads puts es) :=
  hR.bind (hR.gather reads puts es) fun x => hR.commit es x.1 x.2

theorem runSingle
    (hload : ∀ c k, R Value ((sv.compute c k call.invoke).adaptExcept Call.loadError)
      ((sv'.compute c k call'.invoke).adaptExcept Call.loadError)) (b : Bound) (c : CacheRef) :
    R Value (Call.runSingle sv call b c) (Call.runSingle sv' call' b c) := by
  refine hR.bind (hR.passes b .unset) fun passing => ?_
  cases passing with
  | false => exact hR.invoked
  | true => exact hR.bind (hR.keyed b .unset) fun k => hload c k

theorem execute
    (hload : ∀ c k, R Value ((sv.compute c k call.invoke).adaptExcept Call.loadError)
      ((sv'.compute c k call'.invoke).adaptExcept Call.loadError))
    (hplan : ∀ os, R Plan (Call.plan sv call os) (Call.plan sv' call' os)) (os : List Operation) :
    R Value (call.execute sv h os) (call'.execute sv' h' os) := by
  cases os with
  | nil => exact hR.invoked
  | cons o os =>
    refine hR.bind (hplan (o :: os)) fun p => ?_
    cases p with
    | single b c => exact hR.runSingle hload b c
    | phased reads puts es => exact hR.runPhased reads puts es

end Stepwise

end CachedCalls
