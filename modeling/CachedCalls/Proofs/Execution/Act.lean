import CachedCalls.Execution.Run

set_option autoImplicit false

namespace CachedCalls

variable {σ ε ε' α β : Type} {ρ : σ → σ → Prop}

theorem bind_ok {x : EStateM ε σ α} {f : α → EStateM ε σ β} {s s' : σ} {b : β} :
    (x >>= f) s = .ok b s' ↔ ∃ a s₁, x s = .ok a s₁ ∧ f a s₁ = .ok b s' := by
  change EStateM.bind x f s = _ ↔ _
  unfold EStateM.bind
  cases x s with
  | ok a s₁ =>
    refine ⟨fun h => ⟨a, s₁, rfl, h⟩, ?_⟩
    rintro ⟨a, s₁, ⟨⟩, h⟩
    exact h
  | error e s₁ => simp

theorem bind_of_ok {x : EStateM ε σ α} {f : α → EStateM ε σ β} {s s' : σ} {a : α}
    (h : x s = .ok a s') : (x >>= f) s = f a s' := by
  change EStateM.bind x f s = _
  unfold EStateM.bind
  rw [h]

theorem bind_of_error {x : EStateM ε σ α} {f : α → EStateM ε σ β} {s s' : σ} {e : ε}
    (h : x s = .error e s') : (x >>= f) s = .error e s' := by
  change EStateM.bind x f s = _
  unfold EStateM.bind
  rw [h]

theorem pure_ok {a b : α} {s s' : σ} :
    (pure a : EStateM ε σ α) s = .ok b s' ↔ a = b ∧ s = s' := by
  change EStateM.Result.ok a s = .ok b s' ↔ _
  simp

theorem adapt_ok {x : EStateM ε σ α} {f : ε → ε'} {a : α} {s s' : σ} :
    x.adaptExcept f s = .ok a s' ↔ x s = .ok a s' := by
  unfold EStateM.adaptExcept
  cases x s with
  | ok b s₁ => simp
  | error e s₁ => simp

theorem adapt_of_error {x : EStateM ε σ α} {f : ε → ε'} {s s' : σ} {e : ε}
    (h : x s = .error e s') : x.adaptExcept f s = .error (f e) s' := by
  unfold EStateM.adaptExcept
  rw [h]

def stateOf : EStateM.Result ε σ α → σ
  | .ok _ s => s
  | .error _ s => s

def Keeps (ρ : σ → σ → Prop) (x : EStateM ε σ α) : Prop := ∀ s, ρ s (stateOf (x s))

structure Services.Keeps (sv : Services σ) (ρ : σ → σ → Prop) : Prop where
  refl : ∀ s, ρ s s
  trans : ∀ {s s' s''}, ρ s s' → ρ s' s'' → ρ s s''
  metadata : ∀ o m t, CachedCalls.Keeps ρ (sv.metadata o m t)
  find : ∀ r n s, ρ s (sv.find r n s).2
  test : ∀ u el t sc, CachedCalls.Keeps ρ (sv.test u el t sc)
  key : ∀ el t sc, CachedCalls.Keeps ρ (sv.key el t sc)

/-- `sv` for bound operations only: every request for metadata fails, and no cache is found by its
    name. -/
def Services.evaluating (sv : Services σ) : Services σ :=
  { sv with
    metadata := fun _ _ _ => throw .noSource
    metadata_description := fun h => nomatch h
    find := fun _ _ s => (none, s) }

theorem Keeps.adapt {x : EStateM ε σ α} (hx : Keeps ρ x) (f : ε → ε') :
    Keeps ρ (x.adaptExcept f) := by
  intro s
  have h := hx s
  unfold EStateM.adaptExcept
  cases hs : x s <;> rw [hs] at h <;> exact h

namespace Services.Keeps

variable {sv : Services σ} (hk : sv.Keeps ρ)

include hk

theorem pure (a : α) : CachedCalls.Keeps ρ (Pure.pure a : EStateM ε σ α) := fun s => hk.refl s

theorem throw (e : ε) : CachedCalls.Keeps ρ (MonadExcept.throw e : EStateM ε σ α) :=
  fun s => hk.refl s

theorem bind {x : EStateM ε σ α} {f : α → EStateM ε σ β} (hx : CachedCalls.Keeps ρ x)
    (hf : ∀ a, CachedCalls.Keeps ρ (f a)) : CachedCalls.Keeps ρ (x >>= f) := by
  intro s
  have h := hx s
  change ρ s (stateOf (EStateM.bind x f s))
  unfold EStateM.bind
  cases hs : x s with
  | ok a s₁ =>
    rw [hs] at h
    exact hk.trans h (hf a s₁)
  | error e s₁ =>
    rw [hs] at h
    exact h

theorem map {x : EStateM ε σ α} (f : α → β) (hx : CachedCalls.Keeps ρ x) :
    CachedCalls.Keeps ρ (f <$> x) := by
  rw [map_eq_pure_bind]
  exact hk.bind hx fun a => hk.pure (f a)

theorem findAll (m : ManagerRef) (op : String) (ns : List String) :
    CachedCalls.Keeps ρ (sv.findAll m op ns) := by
  induction ns with
  | nil => exact hk.pure []
  | cons n ns ih =>
    intro s
    have h := hk.find m n s
    simp only [Services.findAll]
    split
    · next heq =>
      rw [heq] at h
      exact hk.trans h (hk.map _ ih _)
    · next heq =>
      rw [heq] at h
      exact h

theorem bindOne (call : Call σ) (args : List Value) (o : Operation) :
    CachedCalls.Keeps ρ (sv.bind call args o) := by
  refine hk.bind ((hk.metadata o call.method call.target.type).adapt _) fun d => ?_
  refine hk.bind (hk.findAll _ _ _) fun cs => ?_
  split
  · exact hk.throw _
  · exact hk.pure _

theorem bindAll (call : Call σ) (args : List Value) (os : List Operation) :
    CachedCalls.Keeps ρ (sv.bindAll call args os) := by
  induction os with
  | nil => exact hk.pure []
  | cons o os ih =>
    exact hk.bind (hk.bindOne call args o) fun b => hk.bind ih fun bs => hk.pure (b :: bs)

theorem condition (b : Bound) (r : ResultState) : CachedCalls.Keeps ρ (b.test sv r) := by
  unfold Bound.test
  cases b.operation.condition with
  | none => exact hk.pure true
  | some c => exact hk.test _ _ c _

theorem passes (b : Bound) (r : ResultState) : CachedCalls.Keeps ρ (b.passes sv r) :=
  (hk.condition b r).adapt _

theorem allows (b : Bound) (r : ResultState) : CachedCalls.Keeps ρ (b.allows sv r) := by
  unfold Bound.allows
  cases b.operation.kind.veto with
  | none => exact hk.pure true
  | some u => exact hk.bind ((hk.test _ _ u _).adapt _) fun p => hk.pure (!p)

theorem drawn (b : Bound) (r : ResultState) : CachedCalls.Keeps ρ (b.key sv r) := by
  refine hk.bind ?_ fun k => ?_
  · unfold Bound.drawKey
    cases b.operation.key with
    | none => exact hk.pure _
    | some e => exact hk.map Key.plain ((hk.key _ e _).adapt _)
  · split
    · exact hk.throw _
    · exact hk.pure k

theorem verdict (b : Bound) : CachedCalls.Keeps ρ (Call.verdict sv b) := by
  intro s
  have h := hk.condition b .pending s
  unfold Call.verdict
  cases hs : b.test sv .pending s with
  | ok p s₁ =>
    rw [hs] at h
    exact h
  | error e s₁ =>
    rw [hs] at h
    cases e <;> exact h

theorem verdicts (bs : List Bound) : CachedCalls.Keeps ρ (Call.verdicts sv bs) := by
  induction bs with
  | nil => exact hk.pure []
  | cons b bs ih =>
    exact hk.bind (hk.verdict b) fun v => hk.bind ih fun vs => hk.pure (v :: vs)

theorem settle (r : ResultState) (v : Verdict) : CachedCalls.Keeps ρ (Call.settle sv r v) := by
  obtain ⟨b, _ | p⟩ := v
  · exact hk.passes b r
  · exact hk.pure p

theorem requests (r : ResultState) (vs : List Verdict) :
    CachedCalls.Keeps ρ (Call.requests sv r vs) := by
  induction vs with
  | nil => exact hk.pure []
  | cons v vs ih =>
    refine hk.bind (hk.settle r v) fun p => ?_
    cases p with
    | false => exact ih
    | true => exact hk.bind (hk.drawn v.1 r) fun k => hk.bind ih fun rs => hk.pure _

end Services.Keeps

end CachedCalls
