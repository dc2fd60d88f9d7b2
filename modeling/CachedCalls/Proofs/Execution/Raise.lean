import CachedCalls.Proofs.Execution.Act

set_option autoImplicit false

namespace CachedCalls

variable {σ ε ε' α β : Type}

def Raises (Q : ε → Prop) (x : EStateM ε σ α) : Prop := ∀ s e s', x s = .error e s' → Q e

namespace Raises

variable {Q Q' : ε → Prop}

theorem mono {x : EStateM ε σ α} (hx : Raises Q x) (h : ∀ e, Q e → Q' e) : Raises Q' x :=
  fun s e s' hs => h e (hx s e s' hs)

theorem pure (a : α) : Raises Q (Pure.pure a : EStateM ε σ α) := by
  intro s e s' hs
  cases hs

theorem throw {e : ε} (he : Q e) : Raises Q (MonadExcept.throw e : EStateM ε σ α) := by
  intro s e' s' hs
  cases hs
  exact he

theorem bind {x : EStateM ε σ α} {f : α → EStateM ε σ β} (hx : Raises Q x)
    (hf : ∀ a, Raises Q (f a)) : Raises Q (x >>= f) := by
  intro s e s' hs
  change EStateM.bind x f s = _ at hs
  unfold EStateM.bind at hs
  cases hr : x s with
  | ok a s₁ =>
    rw [hr] at hs
    exact hf a s₁ e s' hs
  | error e₁ s₁ =>
    rw [hr] at hs
    cases hs
    exact hx s e s' hr

theorem map {x : EStateM ε σ α} (f : α → β) (hx : Raises Q x) : Raises Q (f <$> x) := by
  rw [map_eq_pure_bind]
  exact hx.bind fun a => pure (f a)

theorem adapt {P : ε' → Prop} (x : EStateM ε σ α) {f : ε → ε'} (hf : ∀ e, P (f e)) :
    Raises P (x.adaptExcept f) := by
  intro s e s' hs
  unfold EStateM.adaptExcept at hs
  cases hr : x s with
  | ok a s₁ =>
    rw [hr] at hs
    cases hs
  | error e₁ s₁ =>
    rw [hr] at hs
    cases hs
    exact hf e₁

end Raises

namespace CallError

/-- The error is not that of a cache. -/
def Sparing (e : CallError) : Prop := ∀ c, e ≠ cache c

def Misconfigured (e : CallError) : Prop := ∃ f, e = configuration f

theorem Misconfigured.sparing {e : CallError} (he : e.Misconfigured) : e.Sparing := by
  obtain ⟨f, rfl⟩ := he
  intro c hc
  cases hc

theorem sparing_expression (x : ExprError) : (expression x).Sparing := by
  intro c hc
  cases hc

theorem sparing_nullKey (o : String) : (nullKey o).Sparing := by
  intro c hc
  cases hc

theorem sparing_invocation (r : String) : (invocation r).Sparing := by
  intro c hc
  cases hc

end CallError

variable (sv : Services σ)

theorem findAll_raises (m : ManagerRef) (op : String) (ns : List String) :
    Raises CallError.Misconfigured (sv.findAll m op ns) := by
  induction ns with
  | nil => exact Raises.pure []
  | cons n ns ih =>
    intro s e s' hs
    simp only [Services.findAll] at hs
    split at hs
    · exact Raises.map _ ih _ e s' hs
    · cases hs
      exact ⟨_, rfl⟩

theorem bind_raises (call : Call σ) (args : List Value) (o : Operation) :
    Raises CallError.Misconfigured (sv.bind call args o) := by
  refine Raises.bind (Raises.adapt _ fun f => ⟨f, rfl⟩) fun d => ?_
  refine Raises.bind (findAll_raises sv _ _ _) fun cs => ?_
  split
  · exact Raises.throw ⟨_, rfl⟩
  · exact Raises.pure _

theorem bindAll_raises (call : Call σ) (args : List Value) (os : List Operation) :
    Raises CallError.Misconfigured (sv.bindAll call args os) := by
  induction os with
  | nil => exact Raises.pure []
  | cons o os ih =>
    exact Raises.bind (bind_raises sv call args o) fun b => Raises.bind ih fun bs => Raises.pure _

theorem plan_raises (call : Call σ) (os : List Operation) :
    Raises CallError.Misconfigured (Call.plan sv call os) := by
  refine Raises.bind (bindAll_raises sv call _ os) fun bs => ?_
  split
  · exact Raises.pure _
  · exact Raises.throw ⟨_, rfl⟩

theorem evaluated_raises (x : EStateM ExprError σ α) :
    Raises CallError.Sparing (x.adaptExcept CallError.expression) :=
  Raises.adapt x CallError.sparing_expression

theorem verdict_raises (b : Bound) : Raises CallError.Sparing (Call.verdict sv b) := by
  intro s e s' hs
  unfold Call.verdict at hs
  split at hs
  · cases hs
  · cases hs
  · cases hs
    exact CallError.sparing_expression _

end CachedCalls
