import CachedCalls.Proofs.Execution.Act
import CachedCalls.Proofs.Execution.Trace
import CachedCalls.Proofs.Expr.Pending
import CachedCalls.Session.World

set_option autoImplicit false

namespace CachedCalls

namespace Bound

def judge (b : Bound) (r : ResultState) : Except ExprError Bool :=
  match b.operation.condition with
  | none => .ok true
  | some c => (Expr.value c (b.scope r)).bind Expr.asTest

def holds (b : Bound) (r : ResultState) : Bool :=
  match b.judge r with
  | .ok p => p
  | .error _ => false

def permits (b : Bound) (v : Value) : Bool :=
  match b.operation.kind.veto with
  | none => true
  | some u =>
    match (Expr.value u (b.scope (.available v))).bind Expr.asTest with
    | .ok p => !p
    | .error _ => false

def keyIn (b : Bound) (r : ResultState) : Except ExprError Key :=
  match b.operation.key with
  | some e => (Expr.value e (b.scope r)).map Key.plain
  | none => .ok (b.metadata.generator b.target b.metadata.method b.args)

def finalKey (b : Bound) (r : ResultState) : Except CallError Key :=
  match b.keyIn r with
  | .ok k => if k.isNull then .error (.nullKey b.operation.description) else .ok k
  | .error e => .error (.expression e)

theorem holds_of_judge {b : Bound} {r : ResultState} {p : Bool} (h : b.judge r = .ok p) :
    b.holds r = p := by
  rw [holds, h]

theorem judge_of_holds {b : Bound} {r : ResultState} (h : b.holds r = true) : b.judge r = .ok true := by
  unfold holds at h
  split at h
  · next hp => rw [hp, h]
  · cases h

theorem judge_foretells (b : Bound) (r : ResultState) :
    Expr.Foretells (b.judge .pending) (b.judge r) := by
  unfold judge
  cases b.operation.condition with
  | none => exact Expr.Foretells.refl _
  | some c =>
    exact (Expr.value_foretells (b.scope r) r c).bind fun v => Expr.Foretells.refl _

end Bound

variable {σ : Type}

/-- Conditions, vetoes and keys come to what parsing and evaluating their texts gives, whatever the
    state is. -/
structure Services.Evaluates (sv : Services σ) : Prop where
  test : ∀ u el t sc s, ended (sv.test u el t sc s) = (Expr.value t sc).bind Expr.asTest
  key : ∀ el t sc s, ended (sv.key el t sc s) = Expr.value t sc

theorem World.ended_withCompiled {α : Type} (f : Compiled → Except ExprError α × Compiled)
    (w : World) : ended (World.withCompiled f w) = (f w.compiled).1 := by
  unfold World.withCompiled
  generalize f w.compiled = x
  obtain ⟨r, c⟩ := x
  cases r <;> rfl

theorem World.services_evaluates : World.services.Evaluates where
  test u el t sc w :=
    (World.ended_withCompiled (fun c => c.test u el t sc) w).trans
      (Compiled.test_fst w.compiled u el t sc)
  key el t sc w :=
    (World.ended_withCompiled (fun c => c.value .key el t sc) w).trans
      (Compiled.value_fst w.compiled .key el t sc)

theorem ended_adapt {ε ε' α : Type} (x : EStateM ε σ α) (f : ε → ε') (s : σ) :
    ended (x.adaptExcept f s) = (ended (x s)).mapError f := by
  unfold EStateM.adaptExcept
  cases x s <;> rfl

theorem ended_ok {ε α : Type} {x : EStateM.Result ε σ α} {a : α} {s : σ} (h : x = .ok a s) :
    ended x = .ok a := by
  rw [h]
  rfl

namespace Services.Evaluates

variable {sv : Services σ} (hsv : sv.Evaluates)

include hsv

theorem ended_test (b : Bound) (r : ResultState) (s : σ) : ended (b.test sv r s) = b.judge r := by
  unfold Bound.test Bound.judge
  cases b.operation.condition with
  | none => rfl
  | some c => exact hsv.test _ _ c _ s

theorem ended_passes (b : Bound) (r : ResultState) (s : σ) :
    ended (b.passes sv r s) = (b.judge r).mapError .expression := by
  rw [← hsv.ended_test b r s]
  exact ended_adapt _ _ s

theorem ended_drawKey (b : Bound) (r : ResultState) (s : σ) :
    ended (b.drawKey sv r s) = (b.keyIn r).mapError .expression := by
  unfold Bound.drawKey Bound.keyIn
  cases b.operation.key with
  | none => rfl
  | some e =>
    have he := hsv.key b.metadata.element e (b.scope r) s
    simp only [map_eq_pure_bind]
    change ended (EStateM.bind
      ((sv.key b.metadata.element e (b.scope r)).adaptExcept CallError.expression) _ s) = _
    rw [← he]
    unfold EStateM.bind EStateM.adaptExcept
    cases sv.key b.metadata.element e (b.scope r) s <;> rfl

theorem ended_key (b : Bound) (r : ResultState) (s : σ) :
    ended (b.key sv r s) = b.finalKey r := by
  have hdraw := hsv.ended_drawKey b r s
  change ended (EStateM.bind (b.drawKey sv r) _ s) = _
  unfold EStateM.bind Bound.finalKey
  cases hd : b.drawKey sv r s with
  | error e s₁ =>
    rw [hd] at hdraw
    cases hk : b.keyIn r with
    | error e' =>
      rw [hk] at hdraw
      cases hdraw
      rfl
    | ok k =>
      rw [hk] at hdraw
      cases hdraw
  | ok k s₁ =>
    rw [hd] at hdraw
    cases hk : b.keyIn r with
    | error e' =>
      rw [hk] at hdraw
      cases hdraw
    | ok k' =>
      rw [hk] at hdraw
      cases hdraw
      simp only
      by_cases hn : k.isNull = true
      · rw [if_pos hn, if_pos hn]
        rfl
      · rw [if_neg hn, if_neg hn]
        rfl

theorem judge_of_passes {b : Bound} {r : ResultState} {s s' : σ} {p : Bool}
    (h : b.passes sv r s = .ok p s') : b.judge r = .ok p := by
  rw [← hsv.ended_test b r s]
  exact ended_ok (adapt_ok.1 h)

theorem permits_of_allows {b : Bound} {v : Value} {s s' : σ} {p : Bool}
    (h : b.allows sv (.available v) s = .ok p s') : b.permits v = p := by
  unfold Bound.allows at h
  unfold Bound.permits
  cases hk : b.operation.kind.veto with
  | none =>
    rw [hk] at h
    exact (pure_ok.1 h).1
  | some u =>
    rw [hk] at h
    obtain ⟨q, s₁, hq, h⟩ := bind_ok.1 h
    have he := ended_ok (adapt_ok.1 hq)
    rw [hsv.test] at he
    simp only [he]
    exact (pure_ok.1 h).1

theorem keyIn_of_key {b : Bound} {r : ResultState} {s s' : σ} {k : Key}
    (h : b.key sv r s = .ok k s') : b.keyIn r = .ok k := by
  obtain ⟨k', s₁, hdraw, h⟩ := bind_ok.1 h
  have hk : k' = k := by
    split at h
    · cases h
    · exact (pure_ok.1 h).1
  subst hk
  unfold Bound.drawKey at hdraw
  unfold Bound.keyIn
  cases hkey : b.operation.key with
  | none =>
    rw [hkey] at hdraw
    exact congrArg Except.ok (pure_ok.1 hdraw).1
  | some e =>
    rw [hkey] at hdraw
    simp only [map_eq_pure_bind] at hdraw ⊢
    obtain ⟨v, s₂, hv, hp⟩ := bind_ok.1 hdraw
    have he := ended_ok (adapt_ok.1 hv)
    rw [hsv.key] at he
    rw [he]
    exact congrArg Except.ok (pure_ok.1 hp).1

end Services.Evaluates

end CachedCalls
