import CachedCalls.Proofs.Execution.Protocol
import CachedCalls.Proofs.Execution.Raise
import CachedCalls.Proofs.Execution.Stepwise

set_option autoImplicit false

namespace CachedCalls

variable {σ α β : Type}

def forgiven (a : α) (x : EStateM CacheError σ α) : EStateM CacheError σ α := fun s =>
  match x s with
  | .ok b s => .ok b s
  | .error _ s => .ok a s

/-- `sv'` is `sv`, except that a `get` that fails in `sv` misses in `sv'`, and any other access that
    fails in `sv` succeeds there. -/
structure Services.Forgives (sv sv' : Services σ) : Prop where
  metadata : sv'.metadata = sv.metadata
  find : sv'.find = sv.find
  test : sv'.test = sv.test
  key : sv'.key = sv.key
  begin : sv'.begin = sv.begin
  finish : sv'.finish = sv.finish
  get : ∀ c k, sv'.get c k = forgiven none (sv.get c k)
  put : ∀ c k v, sv'.put c k v = forgiven () (sv.put c k v)
  evict : ∀ c k, sv'.evict c k = forgiven () (sv.evict c k)
  clear : ∀ c, sv'.clear c = forgiven () (sv.clear c)
  evictIfPresent : ∀ c k s, ∃ b, sv'.evictIfPresent c k s = forgiven b (sv.evictIfPresent c k) s
  invalidate : ∀ c s, ∃ b, sv'.invalidate c s = forgiven b (sv.invalidate c) s

def Services.forgiving (sv : Services σ) : Services σ :=
  { sv with
    get := fun c k => forgiven none (sv.get c k)
    put := fun c k v => forgiven () (sv.put c k v)
    evict := fun c k => forgiven () (sv.evict c k)
    evictIfPresent := fun c k => forgiven false (sv.evictIfPresent c k)
    clear := fun c => forgiven () (sv.clear c)
    invalidate := fun c => forgiven false (sv.invalidate c) }

theorem Services.forgives_forgiving (sv : Services σ) : sv.Forgives sv.forgiving where
  metadata := rfl
  find := rfl
  test := rfl
  key := rfl
  begin := rfl
  finish := rfl
  get _ _ := rfl
  put _ _ _ := rfl
  evict _ _ := rfl
  clear _ := rfl
  evictIfPresent _ _ _ := ⟨false, rfl⟩
  invalidate _ _ := ⟨false, rfl⟩

theorem guard_forgiven (acc : Access) (a : α) (x : EStateM CacheError σ α) :
    ErrorHandler.swallow.guard acc a (forgiven a x) = ErrorHandler.swallow.guard acc a x := by
  funext s
  unfold ErrorHandler.guard forgiven
  cases hx : x s <;> rfl

theorem guard_discard (acc : Access) {x y : EStateM CacheError σ α}
    (hy : ∀ s, ∃ b, y s = forgiven b x s) :
    ErrorHandler.swallow.guard acc () (discard y) = ErrorHandler.swallow.guard acc () (discard x) := by
  funext s
  obtain ⟨b, hb⟩ := hy s
  have hdiscard (z : EStateM CacheError σ α) : discard z s = EStateM.map (fun _ => ()) z s := rfl
  unfold ErrorHandler.guard
  rw [hdiscard, hdiscard]
  unfold EStateM.map
  rw [hb]
  unfold forgiven
  cases x s <;> rfl

theorem swallow_raises (acc : Access) (a : α) (x : EStateM CacheError σ α) :
    Raises CallError.Sparing (ErrorHandler.swallow.guard acc a x) := by
  intro s e s' hs
  unfold ErrorHandler.guard at hs
  cases hx : x s with
  | ok b s₁ =>
    rw [hx] at hs
    cases hs
  | error e₁ s₁ =>
    rw [hx] at hs
    cases hs

/-- From logs of the same touches, `x` and `y` end in the same way and add the same touches, and
    they do not end with the error of a cache. -/
def Alike (x y : Act (Logged σ) α) : Prop :=
  ∀ s t t', touches t = touches t' → ∃ r u u', x (s, t) = withLog r u ∧ y (s, t') = withLog r u' ∧
    touches u = touches u' ∧ ∀ e, ended r ≠ .error (.cache e)

namespace Alike

theorem of_tracks {x y : Act (Logged σ) α} {z : Act σ α} {ts : List Touch}
    (hx : Tracks x z (fun _ u => touches u = ts)) (hy : Tracks y z (fun _ u => touches u = ts))
    (hz : Raises CallError.Sparing z) : Alike x y := by
  intro s t t' ht
  obtain ⟨u, hu, hts⟩ := hx s t
  obtain ⟨u', hu', hts'⟩ := hy s t'
  refine ⟨z s, t ++ u, t' ++ u', hu, hu', ?_, ?_⟩
  · rw [touches_append, touches_append, ht, hts, hts']
  · intro e he
    cases hs : z s with
    | ok a s₁ =>
      rw [hs] at he
      cases he
    | error e₁ s₁ =>
      rw [hs] at he
      cases he
      exact hz s _ s₁ hs e rfl

theorem of_silent {x y : Act (Logged σ) α} {z : Act σ α} (hx : Silent x z) (hy : Silent y z)
    (hz : Raises CallError.Sparing z) : Alike x y := by
  have hnil {u : List Deed} (hu : u = []) : touches u = [] := by rw [hu]; rfl
  exact of_tracks (hx.mono fun _ _ => hnil) (hy.mono fun _ _ => hnil) hz

theorem bind {x y : Act (Logged σ) α} {f g : α → Act (Logged σ) β} (hx : Alike x y)
    (hf : ∀ a, Alike (f a) (g a)) : Alike (x >>= f) (y >>= g) := by
  intro s t t' ht
  obtain ⟨r, u, u', hu, hu', htouches, hr⟩ := hx s t t' ht
  cases r with
  | ok a s₁ =>
    obtain ⟨r, v, v', hv, hv', htouches, hr⟩ := hf a s₁ u u' htouches
    refine ⟨r, v, v', ?_, ?_, htouches, hr⟩
    · change EStateM.bind x f (s, t) = _
      simp only [EStateM.bind, hu, withLog, hv]
    · change EStateM.bind y g (s, t') = _
      simp only [EStateM.bind, hu', withLog, hv']
  | error e s₁ =>
    refine ⟨.error e s₁, u, u', ?_, ?_, htouches, fun c hc => ?_⟩
    · change EStateM.bind x f (s, t) = _
      simp only [EStateM.bind, hu, withLog]
    · change EStateM.bind y g (s, t') = _
      simp only [EStateM.bind, hu', withLog]
    · cases hc
      exact hr c rfl

theorem guard (acc : Access) (a : α) {x y : EStateM CacheError (Logged σ) α}
    {x' y' : EStateM CacheError σ α} {ts : List Touch}
    (hx : Tracks x x' (fun _ u => touches u = ts)) (hy : Tracks y y' (fun _ u => touches u = ts))
    (heq : ErrorHandler.swallow.guard acc a y' = ErrorHandler.swallow.guard acc a x') :
    Alike (ErrorHandler.swallow.logged.guard acc a x) (ErrorHandler.swallow.logged.guard acc a y) := by
  have hx := guard_tracks (R := fun _ u => touches u = ts) .swallow acc a hx (fun _ _ hu => hu)
    (fun _ _ hu => hu) (fun _ _ _ hu => hu)
  have hy := guard_tracks (R := fun _ u => touches u = ts) .swallow acc a hy (fun _ _ hu => hu)
    (fun _ _ hu => hu) (fun _ _ _ hu => hu)
  rw [heq] at hy
  exact of_tracks hx hy (swallow_raises acc a x')

end Alike

theorem invoked_alike (call : Call σ) : Alike call.logged.invoked call.logged.invoked := by
  have hcalls : Tracks call.logged.invoked call.invoked (fun _ u => touches u = [.invoke]) := by
    refine (invoked_tracks call).mono ?_
    intro r u hu
    obtain ⟨q, rfl, -⟩ := hu
    rfl
  exact Alike.of_tracks hcalls hcalls (Raises.adapt _ CallError.sparing_invocation)

section

variable {sv sv' : Services σ} (hsv : sv.Forgives sv')

include hsv

theorem verdict_forgiven (b : Bound) : Call.verdict sv' b = Call.verdict sv b := by
  unfold Call.verdict Bound.test
  rw [hsv.test]

theorem findAll_forgiven (m : ManagerRef) (op : String) (ns : List String) :
    sv'.findAll m op ns = sv.findAll m op ns := by
  induction ns with
  | nil => rfl
  | cons n ns ih =>
    unfold Services.findAll
    rw [hsv.find, ih]

theorem bindAll_forgiven (call : Call σ) (args : List Value) (os : List Operation) :
    sv'.bindAll call args os = sv.bindAll call args os := by
  have hbind (o : Operation) : sv'.bind call args o = sv.bind call args o := by
    unfold Services.bind
    rw [hsv.metadata]
    simp only [findAll_forgiven hsv]
  induction os with
  | nil => rfl
  | cons o os ih =>
    unfold Services.bindAll
    rw [hbind, ih]

theorem plan_forgiven (call : Call σ) (os : List Operation) :
    Call.plan sv' call os = Call.plan sv call os := by
  unfold Call.plan
  rw [bindAll_forgiven hsv]

theorem stepwise_forgiven (call : Call σ) :
    Stepwise (fun _ x y => Alike x y) sv.logged (ErrorHandler.logged .swallow) call.logged
      sv'.logged (ErrorHandler.logged .swallow) call.logged where
  pure a := Alike.of_silent (Silent.pure a) (Silent.pure a) (Raises.pure a)
  bind := Alike.bind
  nullKey o := Alike.of_silent (Silent.throw _) (Silent.throw _)
    (Raises.throw (CallError.sparing_nullKey o))
  test u el t sc := by
    refine Alike.of_silent ((Silent.of_silently (sv.test u el t sc)).adapt _) ?_
      (evaluated_raises _)
    rw [← hsv.test]
    exact (Silent.of_silently _).adapt _
  key el t sc := by
    refine Alike.of_silent ((Silent.of_silently (sv.key el t sc)).adapt _) ?_ (evaluated_raises _)
    rw [← hsv.key]
    exact (Silent.of_silently _).adapt _
  verdict b := by
    refine Alike.of_silent (verdict_silent sv b) ?_ (verdict_raises sv b)
    rw [← verdict_forgiven hsv]
    exact verdict_silent sv' b
  get k c := by
    refine Alike.guard (.get c k) none
      (recorded_touch (fun r => ⟨.get c k, .ofFound r⟩) (sv.get c k) fun _ => rfl)
      (recorded_touch (fun r => ⟨.get c k, .ofFound r⟩) (sv'.get c k) fun _ => rfl) ?_
    rw [hsv.get]
    exact guard_forgiven _ _ _
  put k v c := by
    refine Alike.guard (.put c k v) ()
      (recorded_touch (fun r => ⟨.put c k v, .ofDone r⟩) (sv.put c k v) fun _ => rfl)
      (recorded_touch (fun r => ⟨.put c k v, .ofDone r⟩) (sv'.put c k v) fun _ => rfl) ?_
    rw [hsv.put]
    exact guard_forgiven _ _ _
  evict immediate k c := by
    cases immediate with
    | true =>
      exact Alike.guard (.evict c k) ()
        (recorded_discard (fun r => ⟨.evictIfPresent c k, .ofDone r⟩) (sv.evictIfPresent c k)
          fun _ => rfl)
        (recorded_discard (fun r => ⟨.evictIfPresent c k, .ofDone r⟩) (sv'.evictIfPresent c k)
          fun _ => rfl)
        (guard_discard _ (hsv.evictIfPresent c k))
    | false =>
      refine Alike.guard (.evict c k) ()
        (recorded_touch (fun r => ⟨.evict c k, .ofDone r⟩) (sv.evict c k) fun _ => rfl)
        (recorded_touch (fun r => ⟨.evict c k, .ofDone r⟩) (sv'.evict c k) fun _ => rfl) ?_
      rw [hsv.evict]
      exact guard_forgiven _ _ _
  clear immediate c := by
    cases immediate with
    | true =>
      exact Alike.guard (.clear c) ()
        (recorded_discard (fun r => ⟨.invalidate c, .ofDone r⟩) (sv.invalidate c) fun _ => rfl)
        (recorded_discard (fun r => ⟨.invalidate c, .ofDone r⟩) (sv'.invalidate c) fun _ => rfl)
        (guard_discard _ (hsv.invalidate c))
    | false =>
      refine Alike.guard (.clear c) ()
        (recorded_touch (fun r => ⟨.clear c, .ofDone r⟩) (sv.clear c) fun _ => rfl)
        (recorded_touch (fun r => ⟨.clear c, .ofDone r⟩) (sv'.clear c) fun _ => rfl) ?_
      rw [hsv.clear]
      exact guard_forgiven _ _ _
  invoked := invoked_alike call

theorem runPhased_forgiven (call : Call σ) (reads puts : List Bound) (es : List Eviction) (s : σ) :
    ∃ t t', Call.runPhased sv.logged (ErrorHandler.logged .swallow) call.logged reads puts es (s, []) =
        withLog (Call.runPhased sv .swallow call reads puts es s) t ∧
      Call.runPhased sv'.logged (ErrorHandler.logged .swallow) call.logged reads puts es (s, []) =
        withLog (Call.runPhased sv' .swallow call reads puts es s) t' ∧
      Call.runPhased sv .swallow call reads puts es s =
        Call.runPhased sv' .swallow call reads puts es s ∧
      touches t = touches t' ∧
      ∀ e, ended (Call.runPhased sv .swallow call reads puts es s) ≠ .error (.cache e) := by
  obtain ⟨r, u, u', hu, hu', htouches, hr⟩ :=
    (stepwise_forgiven hsv call).runPhased reads puts es s [] [] rfl
  obtain ⟨t, ht, -⟩ := runPhased_tracks sv .swallow call reads puts es s []
  obtain ⟨t', ht', -⟩ := runPhased_tracks sv' .swallow call reads puts es s []
  obtain ⟨rfl, rfl⟩ := withLog_inj (hu.symm.trans ht)
  obtain ⟨hsame, rfl⟩ := withLog_inj (hu'.symm.trans ht')
  exact ⟨u, u', hu, ht', hsame, htouches, hr⟩

/-- With the handler `swallow` and no synchronized read, a call over `sv` and one over `sv'` end in
    the same way and make the same accesses and calls of the method. They do not end with the error
    of a cache. -/
theorem execute_forgiven (call : Call σ) (os : List Operation) (s : σ)
    (hplan : ∀ b c s', Call.plan sv call os s ≠ .ok (.single b c) s') :
    ∃ t t', call.logged.execute sv.logged (ErrorHandler.logged .swallow) os (s, []) =
        withLog (call.execute sv .swallow os s) t ∧
      call.logged.execute sv'.logged (ErrorHandler.logged .swallow) os (s, []) =
        withLog (call.execute sv' .swallow os s) t' ∧
      call.execute sv .swallow os s = call.execute sv' .swallow os s ∧
      touches t = touches t' ∧
      ∀ e, ended (call.execute sv .swallow os s) ≠ .error (.cache e) := by
  have hfail := plan_raises sv call os
  have hplan' := plan_forgiven hsv call os
  obtain ⟨u, hu, rfl⟩ := plan_silent sv call os s []
  obtain ⟨u', hu', rfl⟩ := plan_silent sv' call os s []
  rw [hplan'] at hu'
  simp only [execute_planned, hplan']
  change ∃ t t', EStateM.bind _ _ _ = withLog (EStateM.bind _ _ _) t ∧
    EStateM.bind _ _ _ = withLog (EStateM.bind _ _ _) t' ∧ EStateM.bind _ _ _ = EStateM.bind _ _ _ ∧
      touches t = touches t' ∧ ∀ e, ended (EStateM.bind _ _ _) ≠ _
  cases hp : Call.plan sv call os s with
  | error e s₁ =>
    rw [hp] at hu hu'
    refine ⟨[], [], ?_, ?_, ?_, rfl, ?_⟩
    · simp only [EStateM.bind, hu, hp]
      rfl
    · simp only [EStateM.bind, hu', hp]
      rfl
    · simp only [EStateM.bind, hp]
    · intro c hc
      simp only [EStateM.bind, hp] at hc
      cases hc
      exact (hfail s _ s₁ hp).sparing c rfl
  | ok p s₁ =>
    rw [hp] at hu hu'
    cases p with
    | single b c => exact absurd hp (hplan b c s₁)
    | phased reads puts es =>
      simp only [EStateM.bind, hu, hu', hp]
      exact runPhased_forgiven hsv call reads puts es s₁

end

def World.failing : World := { World.plain with faults := [("prices", [.get, .put])] }

theorem execute_forgiven_failing :
    World.services.Forgives World.services.forgiving ∧
      (∀ b c w, Call.plan World.services (priceCall (.str "tea") (.int 3)) [readPrices]
        World.failing ≠ .ok (.single b c) w) ∧
      ∃ t t', (priceCall (.str "tea") (.int 3)).logged.execute World.services.logged
          (ErrorHandler.logged .swallow) [readPrices] (World.failing, []) =
          withLog ((priceCall (.str "tea") (.int 3)).execute World.services .swallow [readPrices]
            World.failing) t ∧
        touches t = touches t' ∧
        t.map Deed.fault? = [some (.backend "prices" "get failed"), none,
          some (.backend "prices" "put failed")] ∧
        t'.map Deed.fault? = [none, none, none] := by
  have hsv := World.services.forgives_forgiving
  have hplan : ∀ b c w, Call.plan World.services (priceCall (.str "tea") (.int 3)) [readPrices]
      World.failing ≠ .ok (.single b c) w := by
    intro b c w hp
    cases hp
  obtain ⟨t, t', ht, ht', -, htouches, -⟩ := execute_forgiven hsv
    (priceCall (.str "tea") (.int 3)) [readPrices] World.failing hplan
  refine ⟨hsv, hplan, t, t', ht, htouches, ?_, ?_⟩
  · rw [← logOf_withLog _ t, ← ht]
    decide +kernel
  · rw [← logOf_withLog _ t', ← ht']
    decide +kernel

end CachedCalls
