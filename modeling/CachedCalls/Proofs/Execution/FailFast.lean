import CachedCalls.Proofs.Execution.Protocol
import CachedCalls.Proofs.Execution.Raise
import CachedCalls.Proofs.Execution.Stepwise

set_option autoImplicit false

namespace CachedCalls

def Faultless (u : List Deed) : Prop := ∀ d ∈ u, d.fault? = none

theorem Faultless.nil : Faultless [] := fun _ hd => nomatch hd

theorem Faultless.append {u v : List Deed} (hu : Faultless u) (hv : Faultless v) : Faultless (u ++ v) := by
  intro d hd
  have hmem := List.mem_append.1 hd
  exact hmem.elim (hu d) (hv d)

/-- The log of a computation that ends with a given result: no access in it has failed and the
    result is no cache error, or the last access has failed and the result is its error. -/
inductive FailFast {α : Type} : Except CallError α → List Deed → Prop where
  | clean {r : Except CallError α} {u : List Deed} (hr : ∀ e, r ≠ .error (.cache e))
      (hu : Faultless u) : FailFast r u
  | failed {e : CacheError} {u : List Deed} {d : Deed} (hu : Faultless u)
      (hd : d.fault? = some e) : FailFast (.error (.cache e)) (u ++ [d])

namespace FailFast

variable {α β : Type}

theorem faultless {a : α} {u : List Deed} (h : FailFast (.ok a) u) : Faultless u := by
  cases h with
  | clean hr hu => exact hu

theorem ok {a : α} {u : List Deed} (hu : Faultless u) : FailFast (.ok a) u :=
  clean (fun _ hr => nomatch hr) hu

theorem sparing {e : CallError} {u : List Deed} (he : e.Sparing) (hu : Faultless u) :
    FailFast (.error e : Except CallError α) u := by
  refine clean (fun c hc => ?_) hu
  cases hc
  exact he c rfl

theorem append {a : α} {r : Except CallError β} {u v : List Deed} (hu : FailFast (.ok a) u)
    (hv : FailFast r v) : FailFast r (u ++ v) := by
  have hfaultless := hu.faultless
  cases hv with
  | clean hr hv => exact clean hr (hfaultless.append hv)
  | failed hv hd =>
    rw [← List.append_assoc]
    exact failed (hfaultless.append hv) hd

theorem error {e : CallError} {u : List Deed} (h : FailFast (.error e : Except CallError α) u) :
    FailFast (.error e : Except CallError β) u := by
  cases h with
  | clean hr hu =>
    refine clean (fun c hc => ?_) hu
    cases hc
    exact hr c rfl
  | failed hu hd => exact failed hu hd

theorem last {r : Except CallError α} {u v : List Deed} {d : Deed} {e : CacheError}
    (h : FailFast r (u ++ d :: v)) (hd : d.fault? = some e) :
    v = [] ∧ r = .error (.cache e) := by
  generalize ht : u ++ d :: v = t at h
  have hmem : d ∈ t := ht ▸ List.mem_append_right u List.mem_cons_self
  cases h with
  | clean hr hfaultless =>
    have hnone := hfaultless d hmem
    rw [hd] at hnone
    cases hnone
  | @failed e' w d' hw hd' =>
    obtain hv | ⟨v, d', hv⟩ := List.eq_nil_or_concat v
    · subst hv
      have hlast := (List.append_inj' ht rfl).2
      cases hlast
      rw [hd] at hd'
      cases hd'
      exact ⟨rfl, rfl⟩
    · -- Then `d` comes before the last deed, and nothing before that has failed.
      rw [hv, List.concat_eq_append, ← List.cons_append, ← List.append_assoc] at ht
      have hinit := (List.append_inj' ht rfl).1
      have hnone := hw d (hinit ▸ List.mem_append_right u List.mem_cons_self)
      rw [hd] at hnone
      cases hnone

theorem ends {e : CacheError} {u : List Deed}
    (h : FailFast (.error (.cache e) : Except CallError α) u) :
    ∃ v d, u = v ++ [d] ∧ d.fault? = some e := by
  cases h with
  | clean hr hu => exact absurd rfl (hr e)
  | failed hu hd => exact ⟨_, _, rfl, hd⟩

end FailFast

variable {σ α β : Type}

theorem Silent.failFast {x : Act (Logged σ) α} {y : Act σ α} (hx : Silent x y)
    (hy : Raises CallError.Sparing y) : Tracks x y FailFast := by
  intro s t
  obtain ⟨u, hu, rfl⟩ := hx s t
  refine ⟨[], hu, ?_⟩
  cases hr : y s with
  | ok a s' => exact FailFast.ok Faultless.nil
  | error e s' => exact FailFast.sparing (hy s e s' hr) Faultless.nil

def Faithful (r : Except CacheError α) (u : List Deed) : Prop :=
  ∃ d, u = [d] ∧ (∀ a, r = .ok a → d.fault? = none) ∧ ∀ e, r = .error e → d.fault? = some e

theorem Faithful.of_done {r : Except CacheError α} {ts : Touch} (ht : ∀ c k, ts ≠ .compute c k) :
    Faithful r [⟨ts, .ofDone r⟩] := by
  refine ⟨_, rfl, ?_, ?_⟩
  · intro a hr
    subst hr
    unfold Deed.fault? Ending.ofDone
    cases ts <;> rfl
  · intro e hr
    subst hr
    unfold Deed.fault? Ending.ofDone
    cases ts with
    | compute c k => exact absurd rfl (ht c k)
    | _ => rfl

theorem Faithful.of_found {r : Except CacheError (Option Value)} (c : CacheRef) (k : Key) :
    Faithful r [⟨.get c k, .ofFound r⟩] := by
  refine ⟨_, rfl, ?_, ?_⟩
  · intro a hr
    subst hr
    rfl
  · intro e hr
    subst hr
    rfl

theorem rethrow_failFast (acc : Access) (a : α) {x : EStateM CacheError (Logged σ) α}
    {y : EStateM CacheError σ α} (hx : Tracks x y Faithful) :
    Tracks (ErrorHandler.rethrow.logged.guard acc a x) (ErrorHandler.rethrow.guard acc a y)
      FailFast := by
  intro s t
  obtain ⟨u, hu, d, rfl, hok, herr⟩ := hx s t
  refine ⟨[d], ?_⟩
  unfold ErrorHandler.guard
  rw [hu]
  cases hy : y s with
  | ok b s' =>
    have hnone : d.fault? = none := hok b (by rw [hy]; rfl)
    refine ⟨rfl, FailFast.ok ?_⟩
    intro d' hd'
    cases List.mem_singleton.1 hd'
    exact hnone
  | error e s' =>
    have hsome : d.fault? = some e := herr e (by rw [hy]; rfl)
    exact ⟨rfl, FailFast.failed Faultless.nil hsome⟩

theorem discard_faithful {x : EStateM CacheError (Logged σ) α} {y : EStateM CacheError σ α}
    (hx : Tracks x y Faithful) : Tracks (discard x) (discard y) Faithful := by
  refine Tracks.bind hx ?_ ?_
  · intro e u hu
    obtain ⟨d, hd, -, herr⟩ := hu
    refine ⟨d, hd, fun _ hr => (nomatch hr), fun e' he' => herr e' ?_⟩
    cases he'
    rfl
  · intro a u hu
    obtain ⟨d, rfl, hok, -⟩ := hu
    exact Tracks.pure ⟨d, rfl, fun _ _ => hok a rfl, fun _ hr => nomatch hr⟩

theorem done_faithful (ts : Touch) (ht : ∀ c k, ts ≠ .compute c k) (y : EStateM CacheError σ α) :
    Tracks (recorded (fun r => ⟨ts, .ofDone r⟩) y) y Faithful := by
  refine (Tracks.recorded _ y).mono ?_
  intro r u hu
  subst hu
  exact Faithful.of_done ht

theorem found_faithful (c : CacheRef) (k : Key) (y : EStateM CacheError σ (Option Value)) :
    Tracks (recorded (fun r => ⟨.get c k, .ofFound r⟩) y) y Faithful := by
  refine (Tracks.recorded _ y).mono ?_
  intro r u hu
  subst hu
  exact Faithful.of_found c k

variable (sv : Services σ)

theorem compute_tracks (c : CacheRef) (k : Key) (call : Call σ) :
    Tracks (sv.logged.compute c k call.logged.invoke) (sv.compute c k call.invoke)
      (fun r u => ∃ v, Faultless v ∧ u = v ++ [⟨.compute c k, .ofOutcome r⟩]) := by
  intro s t
  unfold Services.compute
  simp only [Services.logged]
  obtain ⟨b, s₁⟩ := sv.begin c k s
  cases b with
  | answered o =>
    cases o with
    | ok v => exact ⟨_, rfl, [], Faultless.nil, rfl⟩
    | error e => exact ⟨_, rfl, [], Faultless.nil, rfl⟩
  | load i =>
    have hinvoke (q : Except String Value) : Faultless [⟨.invoke, .ofMethod q⟩] := by
      intro d hd
      cases List.mem_singleton.1 hd
      cases q <;> rfl
    simp only [Call.logged, recorded]
    cases hl : call.invoke s₁ with
    | ok v s₂ =>
      refine ⟨[⟨.invoke, .ofMethod (.ok v)⟩] ++ [⟨.compute c k, _⟩], ?_, _, hinvoke _, rfl⟩
      simp only [withLog, ended, ← List.append_assoc]
    | error e s₂ =>
      refine ⟨[⟨.invoke, .ofMethod (.error e)⟩] ++ [⟨.compute c k, _⟩], ?_, _, hinvoke _, rfl⟩
      simp only [withLog, ended, ← List.append_assoc]

theorem compute_failFast (c : CacheRef) (k : Key) (call : Call σ) :
    Tracks ((sv.logged.compute c k call.logged.invoke).adaptExcept Call.loadError)
      ((sv.compute c k call.invoke).adaptExcept Call.loadError) FailFast := by
  refine Tracks.adapt (compute_tracks sv c k call) ?_
  intro r u hu
  obtain ⟨v, hv, rfl⟩ := hu
  have hclean {d : Deed} (hd : d.fault? = none) : Faultless (v ++ [d]) := by
    refine hv.append ?_
    intro d' hd'
    cases List.mem_singleton.1 hd'
    exact hd
  cases r with
  | ok w => exact FailFast.ok (hclean rfl)
  | error e =>
    cases e with
    | notLoaded k' reason => exact FailFast.sparing (CallError.sparing_invocation reason) (hclean rfl)
    | _ => exact FailFast.failed hv rfl

theorem invoked_failFast (call : Call σ) : Tracks call.logged.invoked call.invoked FailFast := by
  refine (invoked_tracks call).mono ?_
  intro r u hu
  obtain ⟨q, rfl, rfl⟩ := hu
  have hfaultless : Faultless [⟨.invoke, .ofMethod q⟩] := by
    intro d hd
    cases List.mem_singleton.1 hd
    cases q <;> rfl
  cases q with
  | ok v => exact FailFast.ok hfaultless
  | error reason => exact FailFast.sparing (CallError.sparing_invocation reason) hfaultless

theorem stepwise_failFast (call : Call σ) :
    Stepwise (fun _ x y => Tracks x y FailFast) sv.logged (ErrorHandler.logged .rethrow) call.logged
      sv .rethrow call where
  pure a := Tracks.pure (FailFast.ok Faultless.nil)
  bind hx hf := Tracks.bind hx (fun _ _ hu => hu.error)
    fun a u hu => (hf a).mono fun _ _ hv => hu.append hv
  nullKey o := (Silent.throw _).failFast (Raises.throw (CallError.sparing_nullKey o))
  test u el t sc := ((Silent.of_silently _).adapt _).failFast (evaluated_raises _)
  key el t sc := ((Silent.of_silently _).adapt _).failFast (evaluated_raises _)
  verdict b := (verdict_silent sv b).failFast (verdict_raises sv b)
  get k c := rethrow_failFast (.get c k) none (found_faithful c k (sv.get c k))
  put k v c := rethrow_failFast (.put c k v) ()
    (done_faithful (.put c k v) (fun _ _ ht => nomatch ht) (sv.put c k v))
  evict immediate k c := by
    cases immediate with
    | true =>
      exact rethrow_failFast (.evict c k) () (discard_faithful
        (done_faithful (.evictIfPresent c k) (fun _ _ ht => nomatch ht) (sv.evictIfPresent c k)))
    | false =>
      exact rethrow_failFast (.evict c k) ()
        (done_faithful (.evict c k) (fun _ _ ht => nomatch ht) (sv.evict c k))
  clear immediate c := by
    cases immediate with
    | true =>
      exact rethrow_failFast (.clear c) () (discard_faithful
        (done_faithful (.invalidate c) (fun _ _ ht => nomatch ht) (sv.invalidate c)))
    | false =>
      exact rethrow_failFast (.clear c) ()
        (done_faithful (.clear c) (fun _ _ ht => nomatch ht) (sv.clear c))
  invoked := invoked_failFast call

theorem plan_failFast (call : Call σ) (os : List Operation) :
    Tracks (Call.plan sv.logged call.logged os) (Call.plan sv call os) FailFast :=
  (plan_silent sv call os).failFast ((plan_raises sv call os).mono fun _ he => he.sparing)

/-- With the handler `rethrow`, a failed access is the last deed of the log `t`, and the call ends
    with its error; and if the call ends with the error of a cache, the last deed of `t` is an
    access that failed with it. -/
theorem execute_failFast (call : Call σ) (os : List Operation) (s : σ) :
    ∃ t, call.logged.execute sv.logged (ErrorHandler.logged .rethrow) os (s, []) =
        withLog (call.execute sv .rethrow os s) t ∧
      (∀ u d v e, t = u ++ d :: v → d.fault? = some e →
        v = [] ∧ ended (call.execute sv .rethrow os s) = .error (.cache e)) ∧
      (∀ e, ended (call.execute sv .rethrow os s) = .error (.cache e) →
        ∃ u d, t = u ++ [d] ∧ d.fault? = some e) := by
  have hrun := (stepwise_failFast sv call).execute (fun c k => compute_failFast sv c k call)
    (plan_failFast sv call) os
  obtain ⟨t, ht, hfast⟩ := hrun s []
  refine ⟨t, ht, ?_, ?_⟩
  · intro u d v e hu hd
    subst hu
    exact hfast.last hd
  · intro e he
    rw [he] at hfast
    exact hfast.ends

example :
    let run := (priceCall (.str "tea") (.int 3)).logged.execute World.services.logged
      (ErrorHandler.logged .rethrow)
      [{ readPrices with cacheNames := ["prices", "offers"] },
        { dropPrices with kind := .evict true false }]
      ({ World.plain with faults := [("prices", [.put])] }, [])
    (logOf run).map Deed.fault? = [none, none, none, some (.backend "prices" "put failed")] := by
  decide +kernel

end CachedCalls
