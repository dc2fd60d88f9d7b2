import CachedCalls.Proofs.Execution.Act
import CachedCalls.Proofs.Execution.Stepwise
import CachedCalls.Proofs.Execution.Trace

set_option autoImplicit false

namespace CachedCalls

variable {σ ε ε' α β : Type} {ρ : σ → σ → Prop}

/-- The results `r` and `r'` are both the value `a`, in states related by `ρ`, or both the error
    `e`, in states related by `ρ'`. -/
inductive Parallel (ρ ρ' : σ → σ → Prop) (r r' : EStateM.Result ε σ α) : Prop where
  | ok {a : α} {q q' : σ} (hr : r = .ok a q) (hr' : r' = .ok a q') (hq : ρ q q') :
      Parallel ρ ρ' r r'
  | error {e : ε} {q q' : σ} (hr : r = .error e q) (hr' : r' = .error e q') (hq : ρ' q q') :
      Parallel ρ ρ' r r'

namespace Parallel

variable {ρ' τ : σ → σ → Prop}

theorem bind {x y : EStateM ε σ α} {f g : α → EStateM ε σ β} {s s' : σ}
    (hx : Parallel ρ ρ' (x s) (y s'))
    (hf : ∀ a q q', ρ q q' → Parallel τ ρ' (f a q) (g a q')) :
    Parallel τ ρ' ((x >>= f) s) ((y >>= g) s') := by
  cases hx with
  | ok hr hr' hq =>
    rw [bind_of_ok hr, bind_of_ok hr']
    exact hf _ _ _ hq
  | error hr hr' hq => exact .error (bind_of_error hr) (bind_of_error hr') hq

theorem adapt {x y : EStateM ε σ α} {s s' : σ} (hx : Parallel ρ ρ' (x s) (y s')) (f : ε → ε') :
    Parallel ρ ρ' (x.adaptExcept f s) (y.adaptExcept f s') := by
  cases hx with
  | ok hr hr' hq => exact .ok (adapt_ok.2 hr) (adapt_ok.2 hr') hq
  | error hr hr' hq => exact .error (adapt_of_error hr) (adapt_of_error hr') hq

theorem of_ended {r r' : EStateM.Result ε σ α} (hended : ended r = ended r')
    (hstate : ρ (stateOf r) (stateOf r')) : Parallel ρ ρ r r' := by
  cases r with
  | ok a q =>
    cases r' with
    | ok a' q' => cases hended; exact .ok rfl rfl hstate
    | error e q' => cases hended
  | error e q =>
    cases r' with
    | ok a q' => cases hended
    | error e' q' => cases hended; exact .error rfl rfl hstate

theorem ended {r r' : EStateM.Result ε σ α} (hr : Parallel ρ ρ r r') :
    CachedCalls.ended r = CachedCalls.ended r' ∧ ρ (stateOf r) (stateOf r') := by
  cases hr with
  | ok hr hr' hq =>
    rw [hr, hr']
    exact ⟨rfl, hq⟩
  | error hr hr' hq =>
    rw [hr, hr']
    exact ⟨rfl, hq⟩

end Parallel

/-- From states related by `ρ`, `x` and `y` end in the same way, in states related by `ρ`. -/
def Concur (ρ : σ → σ → Prop) (x y : EStateM ε σ α) : Prop :=
  ∀ s s', ρ s s' → Parallel ρ ρ (x s) (y s')

def Blind (ρ : σ → σ → Prop) (x : EStateM ε σ α) : Prop := Concur ρ x x

def BlindStep (ρ : σ → σ → Prop) (f : σ → α × σ) : Prop :=
  ∀ s s', ρ s s' → (f s).1 = (f s').1 ∧ ρ (f s).2 (f s').2

namespace Concur

theorem pure (a : α) : Concur ρ (Pure.pure a : EStateM ε σ α) (Pure.pure a) :=
  fun _ _ hs => .ok rfl rfl hs

theorem throw (e : ε) :
    Concur ρ (MonadExcept.throw e : EStateM ε σ α) (MonadExcept.throw e) :=
  fun _ _ hs => .error rfl rfl hs

theorem bind {x y : EStateM ε σ α} {f g : α → EStateM ε σ β} (hx : Concur ρ x y)
    (hf : ∀ a, Concur ρ (f a) (g a)) : Concur ρ (x >>= f) (y >>= g) :=
  fun s s' hs => (hx s s' hs).bind hf

theorem adapt {x y : EStateM ε σ α} (hx : Concur ρ x y) (f : ε → ε') :
    Concur ρ (x.adaptExcept f) (y.adaptExcept f) :=
  fun s s' hs => (hx s s' hs).adapt f

theorem discard {x y : EStateM ε σ α} (hx : Concur ρ x y) :
    Concur ρ (Functor.discard x) (Functor.discard y) :=
  hx.bind fun _ => pure ()

end Concur

/-- No service but `metadata` tells states apart that `ρ` relates. -/
structure Services.Blind (sv : Services σ) (ρ : σ → σ → Prop) : Prop where
  find : ∀ r n, BlindStep ρ (sv.find r n)
  test : ∀ u el t sc, CachedCalls.Blind ρ (sv.test u el t sc)
  key : ∀ el t sc, CachedCalls.Blind ρ (sv.key el t sc)
  get : ∀ c k, CachedCalls.Blind ρ (sv.get c k)
  put : ∀ c k v, CachedCalls.Blind ρ (sv.put c k v)
  evict : ∀ c k, CachedCalls.Blind ρ (sv.evict c k)
  evictIfPresent : ∀ c k, CachedCalls.Blind ρ (sv.evictIfPresent c k)
  clear : ∀ c, CachedCalls.Blind ρ (sv.clear c)
  invalidate : ∀ c, CachedCalls.Blind ρ (sv.invalidate c)
  begin : ∀ c k, BlindStep ρ (sv.begin c k)
  finish : ∀ c k i l, CachedCalls.Blind ρ (sv.finish c k i l)

theorem guard_blind {h : ErrorHandler σ} (hh : ∀ acc e, Blind ρ (h acc e)) (acc : Access) (a : α)
    {x : EStateM CacheError σ α} (hx : Blind ρ x) : Blind ρ (h.guard acc a x) := by
  intro s s' hs
  unfold ErrorHandler.guard
  cases hx s s' hs with
  | ok hr hr' hq =>
    rw [hr, hr']
    exact .ok rfl rfl hq
  | @error e q q' hr hr' hq =>
    rw [hr, hr']
    cases hh acc e q q' hq with
    | ok hp hp' hq =>
      simp only [hp, hp']
      exact .ok rfl rfl hq
    | error hp hp' hq =>
      simp only [hp, hp']
      exact .error rfl rfl hq

theorem ofMode_blind (m : ErrorMode) (acc : Access) (e : CacheError) :
    Blind ρ (ErrorHandler.ofMode m acc e) := by
  cases m with
  | rethrow => exact Concur.throw e
  | log => exact Concur.pure ()

namespace Services.Blind

variable {sv : Services σ} (hsv : sv.Blind ρ)

include hsv

theorem findAll (m : ManagerRef) (op : String) (ns : List String) :
    CachedCalls.Blind ρ (sv.findAll m op ns) := by
  induction ns with
  | nil => exact Concur.pure []
  | cons n ns ih =>
    intro s s' hs
    obtain ⟨hsame, hq⟩ := hsv.find m n s s' hs
    simp only [Services.findAll]
    cases hf : sv.find m n s with
    | mk c q =>
      cases hf' : sv.find m n s' with
      | mk c' q' =>
        rw [hf, hf'] at hsame hq
        cases hsame
        cases c with
        | none => exact .error rfl rfl hq
        | some c =>
          simp only [map_eq_pure_bind]
          exact (ih.bind fun cs => Concur.pure (c :: cs)) q q' hq

theorem verdict (b : Bound) : CachedCalls.Blind ρ (Call.verdict sv b) := by
  have htest : CachedCalls.Blind ρ (b.test sv .pending) := by
    unfold Bound.test
    cases b.operation.condition with
    | none => exact Concur.pure true
    | some c => exact hsv.test _ _ c _
  intro s s' hs
  unfold Call.verdict
  cases htest s s' hs with
  | ok hr hr' hq =>
    rw [hr, hr']
    exact .ok rfl rfl hq
  | @error e q q' hr hr' hq =>
    rw [hr, hr']
    cases e with
    | notAvailable n => exact .ok rfl rfl hq
    | _ => exact .error rfl rfl hq

theorem compute (c : CacheRef) (k : Key) {load : EStateM String σ Value}
    (hload : CachedCalls.Blind ρ load) : CachedCalls.Blind ρ (sv.compute c k load) := by
  intro s s' hs
  obtain ⟨hsame, hq⟩ := hsv.begin c k s s' hs
  unfold Services.compute
  cases hb : sv.begin c k s with
  | mk b q =>
    cases hb' : sv.begin c k s' with
    | mk b' q' =>
      rw [hb, hb'] at hsame hq
      cases hsame
      cases b with
      | answered o =>
        cases o with
        | ok v => exact .ok rfl rfl hq
        | error e => exact .error rfl rfl hq
      | load i =>
        cases hload q q' hq with
        | @ok v p p' hp hp' hq =>
          simp only [hp, hp']
          exact hsv.finish c k i (.ok v) p p' hq
        | @error e p p' hp hp' hq =>
          simp only [hp, hp']
          exact hsv.finish c k i (.error e) p p' hq

theorem stepwise {h : ErrorHandler σ} (hh : ∀ acc e, CachedCalls.Blind ρ (h acc e)) {call : Call σ}
    (hcall : CachedCalls.Blind ρ call.invoke) :
    Stepwise (fun _ x y => Concur ρ x y) sv h call sv h call where
  pure a := Concur.pure a
  bind := Concur.bind
  nullKey o := Concur.throw _
  test u el t sc := (hsv.test u el t sc).adapt _
  key el t sc := (hsv.key el t sc).adapt _
  verdict := hsv.verdict
  get k c := guard_blind hh _ _ (hsv.get c k)
  put k v c := guard_blind hh _ _ (hsv.put c k v)
  evict immediate k c := by
    cases immediate with
    | true => exact guard_blind hh _ _ (hsv.evictIfPresent c k).discard
    | false => exact guard_blind hh _ _ (hsv.evict c k)
  clear immediate c := by
    cases immediate with
    | true => exact guard_blind hh _ _ (hsv.invalidate c).discard
    | false => exact guard_blind hh _ _ (hsv.clear c)
  invoked := hcall.adapt _

theorem run {h : ErrorHandler σ} (hh : ∀ acc e, CachedCalls.Blind ρ (h acc e)) {call : Call σ}
    (hcall : CachedCalls.Blind ρ call.invoke) (p : Plan) :
    CachedCalls.Blind ρ (Call.run sv h call p) := by
  have hsteps := hsv.stepwise hh hcall
  cases p with
  | single b c =>
    exact hsteps.runSingle (fun c k => (hsv.compute c k hcall).adapt _) b c
  | phased reads puts es => exact hsteps.runPhased reads puts es

end Services.Blind

def Twins (ρ : σ → σ → Prop) (s s' : Logged σ) : Prop := ρ s.1 s'.1 ∧ s.2 = s'.2

theorem withLog_parallel {r r' : EStateM.Result ε σ α} (h : Parallel ρ ρ r r') (t : List Deed) :
    Parallel (Twins ρ) (Twins ρ) (withLog r t) (withLog r' t) := by
  cases h with
  | ok hr hr' hq =>
    rw [hr, hr']
    exact .ok rfl rfl ⟨hq, rfl⟩
  | error hr hr' hq =>
    rw [hr, hr']
    exact .error rfl rfl ⟨hq, rfl⟩

theorem parallel_of_withLog {r r' : EStateM.Result ε σ α} {t t' : List Deed}
    (h : Parallel (Twins ρ) (Twins ρ) (withLog r t) (withLog r' t')) : Parallel ρ ρ r r' := by
  cases h with
  | ok hr hr' hq => exact .ok (withLog_ok hr).1 (withLog_ok hr').1 hq.1
  | error hr hr' hq =>
    cases r <;> cases hr
    cases r' <;> cases hr'
    exact .error rfl rfl hq.1

theorem silently_blind {x : EStateM ε σ α} (hx : Blind ρ x) : Blind (Twins ρ) (silently x) := by
  rintro ⟨s, t⟩ ⟨s', t'⟩ ⟨hs, ht⟩
  cases ht
  exact withLog_parallel (hx s s' hs) t

theorem recorded_blind (f : Except ε α → Deed) {x : EStateM ε σ α} (hx : Blind ρ x) :
    Blind (Twins ρ) (recorded f x) := by
  rintro ⟨s, t⟩ ⟨s', t'⟩ ⟨hs, ht⟩
  cases ht
  unfold recorded
  simp only [(hx s s' hs).ended.1]
  exact withLog_parallel (hx s s' hs) _

theorem Services.Blind.logged {sv : Services σ} (hsv : sv.Blind ρ) :
    sv.logged.Blind (Twins ρ) where
  find r n := by
    rintro ⟨s, t⟩ ⟨s', t'⟩ ⟨hs, ht⟩
    cases ht
    obtain ⟨hsame, hq⟩ := hsv.find r n s s' hs
    exact ⟨hsame, hq, rfl⟩
  test u el t sc := silently_blind (hsv.test u el t sc)
  key el t sc := silently_blind (hsv.key el t sc)
  get c k := recorded_blind (fun r => ⟨.get c k, .ofFound r⟩) (hsv.get c k)
  put c k v := recorded_blind (fun r => ⟨.put c k v, .ofDone r⟩) (hsv.put c k v)
  evict c k := recorded_blind (fun r => ⟨.evict c k, .ofDone r⟩) (hsv.evict c k)
  evictIfPresent c k :=
    recorded_blind (fun r => ⟨.evictIfPresent c k, .ofDone r⟩) (hsv.evictIfPresent c k)
  clear c := recorded_blind (fun r => ⟨.clear c, .ofDone r⟩) (hsv.clear c)
  invalidate c := recorded_blind (fun r => ⟨.invalidate c, .ofDone r⟩) (hsv.invalidate c)
  begin c k := by
    rintro ⟨s, t⟩ ⟨s', t'⟩ ⟨hs, ht⟩
    cases ht
    obtain ⟨hsame, hq⟩ := hsv.begin c k s s' hs
    simp only [Services.logged]
    cases hb : sv.begin c k s with
    | mk b q =>
      cases hb' : sv.begin c k s' with
      | mk b' q' =>
        rw [hb, hb'] at hsame hq
        cases hsame
        cases b <;> exact ⟨rfl, hq, rfl⟩
  finish c k i l := recorded_blind (fun r => ⟨.compute c k, .ofOutcome r⟩) (hsv.finish c k i l)

end CachedCalls
