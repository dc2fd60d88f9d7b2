import CachedCalls.Execution.Run

/-!
Calls that keep a log. Each access to a cache and each call of the method is written down with its
end; a call does the same with the log as without it (`Tracks`), and what it adds to the log is
known phase by phase.
-/

set_option autoImplicit false

namespace CachedCalls

inductive Touch where
  | get (c : CacheRef) (k : Key)
  | put (c : CacheRef) (k : Key) (v : Value)
  | evict (c : CacheRef) (k : Key)
  | evictIfPresent (c : CacheRef) (k : Key)
  | clear (c : CacheRef)
  | invalidate (c : CacheRef)
  | compute (c : CacheRef) (k : Key)
  | invoke

inductive Ending where
  | passed (v : Option Value)
  | failed (e : CacheError)
  | raised (reason : String)

namespace Ending

def ofFound : Except CacheError (Option Value) → Ending
  | .ok v => passed v
  | .error e => failed e

def ofDone {α : Type} : Except CacheError α → Ending
  | .ok _ => passed none
  | .error e => failed e

def ofOutcome : Outcome → Ending
  | .ok v => passed (some v)
  | .error e => failed e

def ofMethod : Except String Value → Ending
  | .ok v => passed (some v)
  | .error e => raised e

end Ending

structure Deed where
  touch : Touch
  ending : Ending

abbrev Logged (σ : Type) := σ × List Deed

variable {σ ε α β : Type}

def ended : EStateM.Result ε σ α → Except ε α
  | .ok a _ => .ok a
  | .error e _ => .error e

def withLog (r : EStateM.Result ε σ α) (t : List Deed) : EStateM.Result ε (Logged σ) α :=
  match r with
  | .ok a s => .ok a (s, t)
  | .error e s => .error e (s, t)

def logOf : EStateM.Result ε (Logged σ) α → List Deed
  | .ok _ s => s.2
  | .error _ s => s.2

theorem logOf_withLog (r : EStateM.Result ε σ α) (t : List Deed) : logOf (withLog r t) = t := by
  cases r <;> rfl

theorem withLog_ok {r : EStateM.Result ε σ α} {t t' : List Deed} {a : α} {s : σ}
    (h : withLog r t = .ok a (s, t')) : r = .ok a s ∧ t = t' := by
  cases r <;> cases h
  exact ⟨rfl, rfl⟩

theorem withLog_inj {r r' : EStateM.Result ε σ α} {t t' : List Deed}
    (h : withLog r t = withLog r' t') : r = r' ∧ t = t' := by
  cases r <;> cases r' <;> cases h <;> exact ⟨rfl, rfl⟩

def silently (x : EStateM ε σ α) : EStateM ε (Logged σ) α := fun s => withLog (x s.1) s.2

def recorded (f : Except ε α → Deed) (x : EStateM ε σ α) : EStateM ε (Logged σ) α := fun s =>
  withLog (x s.1) (s.2 ++ [f (ended (x s.1))])

theorem silently_ok {x : EStateM ε σ α} {a : α} {s s' : Logged σ} (h : silently x s = .ok a s') :
    x s.1 = .ok a s'.1 := by
  unfold silently at h
  cases hx : x s.1 with
  | ok b q =>
    rw [hx] at h
    cases h
    rfl
  | error e q =>
    rw [hx] at h
    cases h

def Services.logged (sv : Services σ) : Services (Logged σ) where
  metadata o m t := silently (sv.metadata o m t)
  metadata_description h := sv.metadata_description (silently_ok h)
  find r n s := ((sv.find r n s.1).1, (sv.find r n s.1).2, s.2)
  test u el t sc := silently (sv.test u el t sc)
  key el t sc := silently (sv.key el t sc)
  get c k := recorded (fun r => ⟨.get c k, .ofFound r⟩) (sv.get c k)
  put c k v := recorded (fun r => ⟨.put c k v, .ofDone r⟩) (sv.put c k v)
  evict c k := recorded (fun r => ⟨.evict c k, .ofDone r⟩) (sv.evict c k)
  evictIfPresent c k := recorded (fun r => ⟨.evictIfPresent c k, .ofDone r⟩) (sv.evictIfPresent c k)
  clear c := recorded (fun r => ⟨.clear c, .ofDone r⟩) (sv.clear c)
  invalidate c := recorded (fun r => ⟨.invalidate c, .ofDone r⟩) (sv.invalidate c)
  begin c k s :=
    match sv.begin c k s.1 with
    | (.answered o, q) => (.answered o, q, s.2 ++ [⟨.compute c k, .ofOutcome o⟩])
    | (.load i, q) => (.load i, q, s.2)
  finish c k i l := recorded (fun r => ⟨.compute c k, .ofOutcome r⟩) (sv.finish c k i l)

def ErrorHandler.logged (h : ErrorHandler σ) : ErrorHandler (Logged σ) := fun acc e =>
  silently (h acc e)

def Call.logged (call : Call σ) : Call (Logged σ) where
  target := call.target
  method := call.method
  args := call.args
  invoke := recorded (fun r => ⟨.invoke, .ofMethod r⟩) call.invoke

/-- From any log, `x` goes as `y` does and appends some `u`, and `P` holds of the end of `y` and of
    `u`. -/
def Tracks (x : EStateM ε (Logged σ) α) (y : EStateM ε σ α)
    (P : Except ε α → List Deed → Prop) : Prop :=
  ∀ s t, ∃ u, x (s, t) = withLog (y s) (t ++ u) ∧ P (ended (y s)) u

namespace Tracks

theorem mono {x : EStateM ε (Logged σ) α} {y : EStateM ε σ α}
    {P Q : Except ε α → List Deed → Prop} (hx : Tracks x y P) (hPQ : ∀ r u, P r u → Q r u) :
    Tracks x y Q := by
  intro s t
  obtain ⟨u, hu, hp⟩ := hx s t
  exact ⟨u, hu, hPQ _ _ hp⟩

theorem pure {P : Except ε α → List Deed → Prop} {a : α} (hP : P (.ok a) []) :
    Tracks (Pure.pure a : EStateM ε (Logged σ) α) (Pure.pure a) P := by
  intro s t
  refine ⟨[], ?_, hP⟩
  rw [List.append_nil]
  rfl

theorem throw {P : Except ε α → List Deed → Prop} {e : ε} (hP : P (.error e) []) :
    Tracks (MonadExcept.throw e : EStateM ε (Logged σ) α) (MonadExcept.throw e) P := by
  intro s t
  refine ⟨[], ?_, hP⟩
  rw [List.append_nil]
  rfl

theorem bind {x : EStateM ε (Logged σ) α} {y : EStateM ε σ α}
    {f : α → EStateM ε (Logged σ) β} {g : α → EStateM ε σ β}
    {P : Except ε α → List Deed → Prop} {R : Except ε β → List Deed → Prop}
    (hx : Tracks x y P) (he : ∀ e u, P (.error e) u → R (.error e) u)
    (hf : ∀ a u, P (.ok a) u → Tracks (f a) (g a) (fun r v => R r (u ++ v))) :
    Tracks (x >>= f) (y >>= g) R := by
  intro s t
  obtain ⟨u, hu, hp⟩ := hx s t
  cases hy : y s with
  | ok a q =>
    rw [hy] at hu hp
    obtain ⟨v, hv, hr⟩ := hf a u hp q (t ++ u)
    refine ⟨u ++ v, ?_, ?_⟩
    · change EStateM.bind x f (s, t) = withLog (EStateM.bind y g s) _
      simp only [EStateM.bind, hy, hu, withLog, hv, List.append_assoc]
    · change R (ended (EStateM.bind y g s)) _
      simpa only [EStateM.bind, hy] using hr
  | error e q =>
    rw [hy] at hu hp
    refine ⟨u, ?_, ?_⟩
    · change EStateM.bind x f (s, t) = withLog (EStateM.bind y g s) _
      simp only [EStateM.bind, hy, hu, withLog]
    · change R (ended (EStateM.bind y g s)) _
      simpa only [EStateM.bind, hy, ended] using he e u hp

theorem adapt {ε' : Type} {x : EStateM ε (Logged σ) α} {y : EStateM ε σ α} {f : ε → ε'}
    {P : Except ε α → List Deed → Prop} {R : Except ε' α → List Deed → Prop}
    (hx : Tracks x y P) (hR : ∀ r u, P r u → R (r.mapError f) u) :
    Tracks (x.adaptExcept f) (y.adaptExcept f) R := by
  intro s t
  obtain ⟨u, hu, hp⟩ := hx s t
  have hr := hR _ _ hp
  refine ⟨u, ?_, ?_⟩
  · unfold EStateM.adaptExcept
    rw [hu]
    cases y s <;> rfl
  · unfold EStateM.adaptExcept
    cases hy : y s <;> rw [hy] at hr <;> exact hr

theorem recorded (f : Except ε α → Deed) (y : EStateM ε σ α) :
    Tracks (CachedCalls.recorded f y) y (fun r u => u = [f r]) := by
  intro s t
  exact ⟨_, rfl, rfl⟩

end Tracks

abbrev Silent (x : EStateM ε (Logged σ) α) (y : EStateM ε σ α) : Prop :=
  Tracks x y (fun _ u => u = [])

namespace Silent

theorem of_silently (y : EStateM ε σ α) : Silent (silently y) y := by
  intro s t
  refine ⟨[], ?_, rfl⟩
  rw [List.append_nil]
  rfl

theorem pure (a : α) : Silent (Pure.pure a : EStateM ε (Logged σ) α) (Pure.pure a) :=
  Tracks.pure rfl

theorem throw (e : ε) :
    Silent (MonadExcept.throw e : EStateM ε (Logged σ) α) (MonadExcept.throw e) :=
  Tracks.throw rfl

theorem bind {x : EStateM ε (Logged σ) α} {y : EStateM ε σ α}
    {f : α → EStateM ε (Logged σ) β} {g : α → EStateM ε σ β} (hx : Silent x y)
    (hf : ∀ a, Silent (f a) (g a)) : Silent (x >>= f) (y >>= g) := by
  refine Tracks.bind hx (fun _ _ hu => hu) ?_
  rintro a u rfl
  exact hf a

theorem map {x : EStateM ε (Logged σ) α} {y : EStateM ε σ α} (f : α → β) (hx : Silent x y) :
    Silent (f <$> x) (f <$> y) := by
  rw [map_eq_pure_bind, map_eq_pure_bind]
  exact bind hx fun a => pure (f a)

theorem adapt {ε' : Type} {x : EStateM ε (Logged σ) α} {y : EStateM ε σ α} (f : ε → ε')
    (hx : Silent x y) : Silent (x.adaptExcept f) (y.adaptExcept f) :=
  Tracks.adapt hx fun _ _ hu => hu

end Silent

theorem Tracks.bind_silent {x : EStateM ε (Logged σ) α} {y : EStateM ε σ α}
    {f : α → EStateM ε (Logged σ) β} {g : α → EStateM ε σ β}
    {R : Except ε β → List Deed → Prop} (hx : Silent x y) (he : ∀ e, R (.error e) [])
    (hf : ∀ a, Tracks (f a) (g a) R) : Tracks (x >>= f) (y >>= g) R := by
  refine Tracks.bind hx ?_ ?_
  · rintro e u rfl
    exact he e
  · rintro a u rfl
    exact hf a

variable (sv : Services σ)

theorem test_silent (b : Bound) (r : ResultState) : Silent (b.test sv.logged r) (b.test sv r) := by
  unfold Bound.test
  cases b.operation.condition with
  | none => exact Silent.pure true
  | some c => exact Silent.of_silently _

theorem passes_silent (b : Bound) (r : ResultState) :
    Silent (b.passes sv.logged r) (b.passes sv r) :=
  Silent.adapt _ (test_silent sv b r)

theorem allows_silent (b : Bound) (r : ResultState) :
    Silent (b.allows sv.logged r) (b.allows sv r) := by
  unfold Bound.allows
  cases b.operation.kind.veto with
  | none => exact Silent.pure true
  | some c =>
    refine Silent.bind (Silent.adapt _ (Silent.of_silently _)) ?_
    intro v
    exact Silent.pure _

theorem drawKey_silent (b : Bound) (r : ResultState) :
    Silent (b.drawKey sv.logged r) (b.drawKey sv r) := by
  unfold Bound.drawKey
  cases b.operation.key with
  | none => exact Silent.pure _
  | some e => exact Silent.map _ (Silent.adapt _ (Silent.of_silently _))

theorem key_silent (b : Bound) (r : ResultState) : Silent (b.key sv.logged r) (b.key sv r) := by
  unfold Bound.key
  refine Silent.bind (drawKey_silent sv b r) ?_
  intro k
  split
  · exact Silent.throw _
  · exact Silent.pure k

theorem findAll_silent (m : ManagerRef) (op : String) (ns : List String) :
    Silent (sv.logged.findAll m op ns) (sv.findAll m op ns) := by
  induction ns with
  | nil => exact Silent.pure []
  | cons n ns ih =>
    intro s t
    simp only [Services.findAll, Services.logged]
    obtain ⟨c, q⟩ := sv.find m n s
    cases c with
    | none => exact ⟨[], by rw [List.append_nil]; rfl, rfl⟩
    | some c => exact Silent.map (c :: ·) ih q t

theorem bind_silent (call : Call σ) (args : List Value) (o : Operation) :
    Silent (sv.logged.bind call.logged args o) (sv.bind call args o) := by
  unfold Services.bind
  refine Silent.bind (Silent.adapt _ (Silent.of_silently _)) ?_
  intro d
  refine Silent.bind (findAll_silent sv _ _ _) ?_
  intro cs
  split
  · exact Silent.throw _
  · exact Silent.pure _

theorem bindAll_silent (call : Call σ) (args : List Value) (os : List Operation) :
    Silent (sv.logged.bindAll call.logged args os) (sv.bindAll call args os) := by
  induction os with
  | nil => exact Silent.pure []
  | cons o os ih =>
    refine Silent.bind (bind_silent sv call args o) ?_
    intro b
    refine Silent.bind ih ?_
    intro bs
    exact Silent.pure _

theorem plan_silent (call : Call σ) (os : List Operation) :
    Silent (Call.plan sv.logged call.logged os) (Call.plan sv call os) := by
  refine Silent.bind (bindAll_silent sv call (spread call.method call.args) os) fun bs => ?_
  unfold Call.logged
  simp only
  split
  · exact Silent.pure _
  · exact Silent.throw _

end CachedCalls
