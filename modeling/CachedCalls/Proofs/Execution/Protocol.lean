import CachedCalls.Proofs.Execution.Act
import CachedCalls.Proofs.Execution.Phase
import CachedCalls.Proofs.Operation.Description
import CachedCalls.Session.World

/-!
The order of what a call does. A call without a synchronized read goes through five phases, which
its log shows one after the other: evictions that come before the call, the search for a value, the
method, the puts, and the evictions that come after it (`Protocol`).
-/

set_option autoImplicit false

namespace CachedCalls

/-- The parts of a log, one after the other. -/
structure Phases where
  before : List Deed
  gets : List Deed
  calls : List Deed
  puts : List Deed
  after : List Deed

namespace Phases

def all (p : Phases) : List Deed := p.before ++ p.gets ++ p.calls ++ p.puts ++ p.after

/-- `v` is what the method returned, or what was found if the method was not called. -/
def Yields (p : Phases) (v : Value) : Prop :=
  p.calls = [⟨.invoke, .passed (some v)⟩] ∨
    p.calls = [] ∧ ∃ c k, p.gets.getLast? = some ⟨.get c k, .passed (some v)⟩

end Phases

def Stops {α : Type} (r : Except CallError α) (rest : List Deed) : Prop :=
  rest = [] ∧ ∃ e, r = .error e

/-- The part `u` of a log touches the first of `ts` in order: all of them, or else `r` is an error
    and nothing comes after `u`. -/
def Passes {α : Type} (ts : List Touch) (u : List Deed) (r : Except CallError α)
    (rest : List Deed) : Prop :=
  touches u <+: ts ∧ (touches u = ts ∨ Stops r rest)

structure Opened (reads : List Bound) (evictions : List Eviction) (b g : List Deed) : Prop where
  before : Course Eviction.aims (evictions.filter (·.before == true)) (touches b)
  gets : ∃ ts, Course Bound.reads reads ts ∧ touches g <+: ts ∧
    (touches g = ts ∨ ∃ d, g.getLast? = some d ∧ d.isHit = true)
  first : ∀ d ∈ g.dropLast, d.isHit = false

structure Gathered (reads puts : List Bound) (evictions : List Eviction) (b g c : List Deed)
    (r : Except CallError (Value × List Request)) : Prop where
  before : ∃ ts, Course Eviction.aims (evictions.filter (·.before == true)) ts ∧
    Passes ts b r (g ++ c)
  gets : ∃ ts, Course Bound.reads reads ts ∧ touches g <+: ts ∧
    (touches g = ts ∨ (∃ d, g.getLast? = some d ∧ d.isHit = true) ∨ Stops r c)
  first : ∀ d ∈ g.dropLast, d.isHit = false
  calls : c = [] ∨ ∃ q, c = [⟨.invoke, .ofMethod q⟩]
  raised : ∀ e, c = [⟨.invoke, .raised e⟩] → r = .error (.invocation e)
  value : ∀ v rs, r = .ok (v, rs) → (Phases.mk b g c [] []).Yields v ∧
    (rs.map (·.bound)).Sublist (reads ++ puts) ∧
    (rs ≠ [] → c = [⟨.invoke, .passed (some v)⟩])

theorem Opened.gathered {reads puts : List Bound} {evictions : List Eviction} {b g : List Deed}
    (ho : Opened reads evictions b g) {c : List Deed}
    {r : Except CallError (Value × List Request)}
    (hc : c = [] ∨ ∃ q, c = [⟨.invoke, .ofMethod q⟩])
    (hraised : ∀ e, c = [⟨.invoke, .raised e⟩] → r = .error (.invocation e))
    (hvalue : ∀ v rs, r = .ok (v, rs) → (Phases.mk b g c [] []).Yields v ∧
      (rs.map (·.bound)).Sublist (reads ++ puts) ∧
      (rs ≠ [] → c = [⟨.invoke, .passed (some v)⟩])) :
    Gathered reads puts evictions b g c r where
  before := ⟨touches b, ho.before, List.prefix_rfl, .inl rfl⟩
  gets := by
    obtain ⟨ts, hts, hg, hend⟩ := ho.gets
    exact ⟨ts, hts, hg, hend.imp_right .inl⟩
  first := ho.first
  calls := hc
  raised := hraised
  value := hvalue

variable {σ : Type} (sv : Services σ) (h : ErrorHandler σ)

theorem invoked_tracks (call : Call σ) :
    Tracks call.logged.invoked call.invoked
      (fun r u => ∃ q, u = [⟨.invoke, .ofMethod q⟩] ∧ r = q.mapError .invocation) := by
  refine Tracks.adapt (Tracks.recorded (fun r => ⟨.invoke, .ofMethod r⟩) call.invoke) ?_
  rintro r u rfl
  exact ⟨r, rfl, rfl⟩

theorem invoked_gathered {reads puts : List Bound} {evictions : List Eviction} {b g : List Deed}
    (ho : Opened reads evictions b g) (call : Call σ)
    {f : Value → Act (Logged σ) (Value × List Request)} {f' : Value → Act σ (Value × List Request)}
    (hf : ∀ v, Tracks (f v) (f' v) (fun r u => u = [] ∧ ∀ x, r = .ok x → x.1 = v ∧
      (x.2.map (·.bound)).Sublist (reads ++ puts))) :
    Tracks (call.logged.invoked >>= f) (call.invoked >>= f')
      (fun r c => Gathered reads puts evictions b g c r) := by
  refine Tracks.bind (invoked_tracks call) ?_ ?_
  · rintro e u ⟨q, rfl, hq⟩
    cases q with
    | ok v => cases hq
    | error reason =>
      cases hq
      refine ho.gathered (.inr ⟨_, rfl⟩) ?_ fun _ _ hr => nomatch hr
      rintro e' ⟨⟩
      rfl
  · rintro v u ⟨q, rfl, hq⟩
    cases q with
    | error reason => cases hq
    | ok w =>
      cases hq
      refine (hf v).mono ?_
      rintro r u ⟨rfl, hr⟩
      refine ho.gathered (.inr ⟨.ok v, rfl⟩) (fun e he => nomatch he) ?_
      rintro v' rs rfl
      obtain ⟨rfl, hsub⟩ := hr _ rfl
      exact ⟨.inl rfl, hsub, fun _ => rfl⟩

theorem requested_tracks (v : Value) {bs : List Bound} {missed : List Request} {vs : List Verdict}
    (hsub : ((missed.map (·.bound)) ++ vs.map (·.1)).Sublist bs) :
    Tracks (do
        let rs ← Call.requests sv.logged (.available v) vs
        pure (v, missed ++ rs))
      (do
        let rs ← Call.requests sv (.available v) vs
        pure (v, missed ++ rs))
      (fun r u => u = [] ∧ ∀ x, r = .ok x → x.1 = v ∧ (x.2.map (·.bound)).Sublist bs ∧
        (missed = [] → vs.any Call.effective = false → x.2 = [])) := by
  refine Tracks.bind (requests_tracks sv (.available v) vs)
    (fun e u hu => ⟨hu.1, fun _ hx => nomatch hx⟩) ?_
  rintro rs u ⟨rfl, hrs⟩
  refine Tracks.pure ⟨rfl, ?_⟩
  rintro x ⟨⟩
  obtain ⟨hbs, hnone⟩ := hrs rs rfl
  refine ⟨rfl, ?_, fun hm hany => ?_⟩
  · rw [List.map_append]
    exact ((List.Sublist.refl _).append hbs).trans hsub
  · rw [hm, hnone hany]
    rfl

theorem hit_gathered {reads puts : List Bound} {evictions : List Eviction} {b g : List Deed}
    (ho : Opened reads evictions b g) (call : Call σ) {v : Value}
    (hv : ∃ c k, g.getLast? = some ⟨.get c k, .passed (some v)⟩) {vs : List Verdict}
    (hvs : vs.map (·.1) = puts) :
    Tracks (do
        let v ← call.logged.renew vs v
        let rs ← Call.requests sv.logged (.available v) vs
        pure (v, rs))
      (do
        let v ← call.renew vs v
        let rs ← Call.requests sv (.available v) vs
        pure (v, rs))
      (fun r c => Gathered reads puts evictions b g c r) := by
  have hsub : (([] : List Request).map (·.bound) ++ vs.map (·.1)).Sublist (reads ++ puts) := by
    rw [hvs]
    exact List.sublist_append_right reads puts
  unfold Call.renew
  cases hany : vs.any Call.effective with
  | true =>
    refine invoked_gathered ho call fun w => (requested_tracks sv w hsub).mono ?_
    rintro r u ⟨hu, hr⟩
    exact ⟨hu, fun x hx => ⟨(hr x hx).1, (hr x hx).2.1⟩⟩
  | false =>
    refine Tracks.bind (Tracks.pure (P := fun r u => u = [] ∧ r = .ok v) ⟨rfl, rfl⟩) ?_ ?_
    · rintro e u ⟨-, he⟩
      cases he
    · rintro w u ⟨rfl, hw⟩
      cases hw
      refine (requested_tracks sv v hsub).mono ?_
      rintro r u ⟨rfl, hr⟩
      refine ho.gathered (.inl rfl) (fun e he => nomatch he) ?_
      rintro v' rs rfl
      obtain ⟨rfl, hrs, hnone⟩ := hr _ rfl
      exact ⟨.inr ⟨rfl, hv⟩, hrs, fun hne => absurd (hnone rfl hany) hne⟩

theorem gather_tracks (call : Call σ) (reads puts : List Bound) (evictions : List Eviction) :
    Tracks (Call.gather sv.logged h.logged call.logged reads puts evictions)
      (Call.gather sv h call reads puts evictions)
      (fun r u => ∃ b g c, u = b ++ g ++ c ∧ Gathered reads puts evictions b g c r) := by
  -- Each phase is judged together with the phases before it, which are through by then.
  refine Tracks.bind (evictAll_tracks sv h true .unset evictions) ?_ ?_
  · rintro e u ⟨ts, hts, hu⟩
    refine ⟨u, [], [], by simp, ?_⟩
    exact ⟨⟨ts, hts, hu.order, .inr ⟨rfl, e, rfl⟩⟩,
      ⟨[], .idle reads, List.prefix_rfl, .inl rfl⟩, fun _ hd => (nomatch hd), .inl rfl,
      fun _ he => (nomatch he), fun _ _ hr => nomatch hr⟩
  rintro _ b ⟨ts, hts, hb⟩
  have hcourse : Course Eviction.aims (evictions.filter (·.before == true)) (touches b) :=
    (hb.whole rfl).symm ▸ hts
  refine Tracks.bind (search_tracks sv h reads) ?_ ?_
  · rintro e g ⟨⟨ts, hts, hg⟩, -⟩
    refine ⟨b, g, [], by simp, ?_⟩
    exact ⟨⟨_, hcourse, List.prefix_rfl, .inl rfl⟩,
      ⟨ts, hts, hg.order, .inr (.inr ⟨rfl, e, rfl⟩)⟩, hg.missed, .inl rfl,
      fun _ he => (nomatch he), fun _ _ hr => nomatch hr⟩
  rintro x g ⟨⟨ts, hts, hg⟩, hrs⟩
  cases x with
  | hit v =>
    obtain ⟨c, k, hlast⟩ := hg.found v rfl
    have ho : Opened reads evictions b g :=
      ⟨hcourse, ⟨ts, hts, hg.order, .inr ⟨_, hlast, rfl⟩⟩, hg.missed⟩
    refine Tracks.bind (verdicts_tracks sv puts) ?_ ?_
    · rintro e u ⟨rfl, -⟩
      exact ⟨b, g, [], by simp, ho.gathered (.inl rfl) (fun _ he => nomatch he)
        fun _ _ hr => nomatch hr⟩
    · rintro vs u ⟨rfl, hvs⟩
      refine (hit_gathered sv ho call ⟨c, k, hlast⟩ (hvs vs rfl)).mono ?_
      intro r c hr
      exact ⟨b, g, c, by simp, hr⟩
  | missed rs =>
    have ho : Opened reads evictions b g :=
      ⟨hcourse, ⟨ts, hts, hg.order, .inl (hg.whole rfl)⟩, hg.missed⟩
    have hsub : (rs.map (·.bound) ++ (puts.map (fun b => ((b, none) : Verdict))).map (·.1)).Sublist
        (reads ++ puts) := by
      refine (hrs _ rfl).append ?_
      rw [List.map_map]
      exact (List.map_id puts).symm ▸ List.Sublist.refl puts
    have hcall : Tracks _ _ (fun r c => Gathered reads puts evictions b g c r) :=
      invoked_gathered ho call fun v => (requested_tracks sv v hsub).mono fun r u hu =>
        ⟨hu.1, fun x hx => ⟨(hu.2 x hx).1, (hu.2 x hx).2.1⟩⟩
    refine hcall.mono ?_
    intro r c hr
    exact ⟨b, g, c, by simp, hr⟩

theorem store_tracks (v : Value) (rq : Request) :
    Tracks (Call.store sv.logged h.logged v rq) (Call.store sv h v rq)
      (fun x u => Sweep [] x u ∨ ∃ _k : Key, Sweep (rq.bound.writes v rq.key) x u) := by
  have hidle (x : Except CallError Unit) :
      Sweep [] x [] ∨ ∃ _k : Key, Sweep (rq.bound.writes v rq.key) x [] := .inl (Sweep.nil x)
  refine Tracks.bind_silent (allows_silent sv rq.bound (.available v)) (fun _ => hidle _) ?_
  intro allowed
  cases allowed with
  | false => exact Tracks.pure (hidle _)
  | true =>
    refine (forM_sweep (.put · rq.key v) (fun c => ?_) rq.bound.caches).mono
      fun x u hu => .inr ⟨rq.key, hu⟩
    exact sweep_one h (.put c rq.key v)
      (recorded_touch (fun r => ⟨.put c rq.key v, .ofDone r⟩) (sv.put c rq.key v) fun _ => rfl)

theorem Course.of_requests {v : Value} {rs : List Request} {ts : List Touch}
    (hts : Course (fun rq _ => rq.bound.writes v rq.key) rs ts) {bs : List Bound}
    (hsub : (rs.map (·.bound)).Sublist bs) : Course (Bound.writes v) bs ts := by
  induction bs generalizing rs ts with
  | nil =>
    cases rs with
    | nil =>
      cases hts
      exact .nil
    | cons rq rs => cases hsub
  | cons b bs ih =>
    cases rs with
    | nil =>
      cases hts
      exact .idle _
    | cons rq rs =>
      rw [List.map_cons] at hsub
      cases hsub with
      | cons _ hsub => exact .skip (ih hts hsub)
      | cons_cons _ hsub =>
        cases hts with
        | skip hts => exact .skip (ih hts hsub)
        | take _ hts => exact .take rq.key (ih hts hsub)

structure Committed (bs : List Bound) (evictions : List Eviction) (v : Value) (rs : List Request)
    (p a : List Deed) (r : Except CallError Value) : Prop where
  value : ∀ w, r = .ok w → w = v
  idle : rs = [] → p = []
  puts : ∃ ts, Course (Bound.writes v) bs ts ∧ Passes ts p r a
  after : ∃ ts, Course Eviction.aims (evictions.filter (·.before == false)) ts ∧ Passes ts a r []

theorem commit_tracks (evictions : List Eviction) (v : Value) (rs : List Request)
    {bs : List Bound} (hsub : (rs.map (·.bound)).Sublist bs) :
    Tracks (Call.commit sv.logged h.logged evictions v rs) (Call.commit sv h evictions v rs)
      (fun r u => ∃ p a, u = p ++ a ∧ Committed bs evictions v rs p a r) := by
  have hempty {ts : List Touch} {x : Except CallError Unit} {p : List Deed}
      (hts : Course (fun rq _ => rq.bound.writes v rq.key) rs ts) (hp : Sweep ts x p)
      (hrs : rs = []) : p = [] := by
    subst hrs
    cases hts
    exact List.map_eq_nil_iff.1 (List.prefix_nil.1 hp.order)
  refine Tracks.bind (forM_course _ (store_tracks sv h v) rs) ?_ ?_
  · rintro e p ⟨ts, hts, hp⟩
    refine ⟨p, [], (List.append_nil p).symm, ?_, hempty hts hp, ?_, ?_⟩
    · rintro w ⟨⟩
    · exact ⟨ts, hts.of_requests hsub, hp.order, .inr ⟨rfl, e, rfl⟩⟩
    · exact ⟨[], .idle _, List.prefix_rfl, .inl rfl⟩
  rintro _ p ⟨ts, hts, hp⟩
  have hputs {r : Except CallError Value} {a : List Deed} :
      ∃ ts, Course (Bound.writes v) bs ts ∧ Passes ts p r a :=
    ⟨ts, hts.of_requests hsub, hp.order, .inl (hp.whole rfl)⟩
  refine Tracks.bind (evictAll_tracks sv h false (.available v) evictions) ?_ ?_
  · rintro e a ⟨us, hus, ha⟩
    refine ⟨p, a, rfl, ?_, hempty hts hp, hputs, ⟨us, hus, ha.order, .inr ⟨rfl, e, rfl⟩⟩⟩
    rintro w ⟨⟩
  · rintro _ a ⟨us, hus, ha⟩
    refine Tracks.pure ⟨p, a, by simp, ?_, hempty hts hp, hputs,
      ⟨us, hus, ha.order, .inl (ha.whole rfl)⟩⟩
    rintro w ⟨⟩
    rfl

/-- The log of a call that ends with `r`, phase by phase: evictions before the call, gets of
    `reads`, the method, puts of `reads` and `puts`, and evictions after the call. -/
structure Protocol (reads puts : List Bound) (evictions : List Eviction)
    (r : Except CallError Value) (p : Phases) : Prop where
  before : ∃ ts, Course Eviction.aims (evictions.filter (·.before == true)) ts ∧
    Passes ts p.before r (p.gets ++ p.calls ++ p.puts ++ p.after)
  gets : ∃ ts, Course Bound.reads reads ts ∧ touches p.gets <+: ts ∧
    (touches p.gets = ts ∨ (∃ d, p.gets.getLast? = some d ∧ d.isHit = true) ∨
      Stops r (p.calls ++ p.puts ++ p.after))
  first : ∀ d ∈ p.gets.dropLast, d.isHit = false
  calls : p.calls = [] ∨ ∃ q, p.calls = [⟨.invoke, .ofMethod q⟩]
  raised : ∀ e, p.calls = [⟨.invoke, .raised e⟩] →
    p.puts = [] ∧ p.after = [] ∧ r = .error (.invocation e)
  puts : p.puts ≠ [] → ∃ v, p.calls = [⟨.invoke, .passed (some v)⟩] ∧
    ∃ ts, Course (Bound.writes v) (reads ++ puts) ts ∧ Passes ts p.puts r p.after
  after : p.after ≠ [] → (∃ v, p.Yields v) ∧
    ∃ ts, Course Eviction.aims (evictions.filter (·.before == false)) ts ∧ Passes ts p.after r []
  value : ∀ v, r = .ok v → p.Yields v

theorem Gathered.failed {reads puts : List Bound} {evictions : List Eviction} {b g c : List Deed}
    {e : CallError} (hg : Gathered reads puts evictions b g c (.error e)) :
    Protocol reads puts evictions (.error e) ⟨b, g, c, [], []⟩ where
  before := by
    obtain ⟨ts, hts, hb, hend⟩ := hg.before
    refine ⟨ts, hts, hb, hend.imp_right ?_⟩
    rintro ⟨hrest, -⟩
    exact ⟨by simp [hrest], e, rfl⟩
  gets := by
    obtain ⟨ts, hts, hb, hend⟩ := hg.gets
    refine ⟨ts, hts, hb, hend.imp_right (Or.imp_right ?_)⟩
    rintro ⟨hrest, -⟩
    exact ⟨by simp [hrest], e, rfl⟩
  first := hg.first
  calls := hg.calls
  raised reason hc := by
    have hr := hg.raised reason hc
    cases hr
    exact ⟨rfl, rfl, rfl⟩
  puts hne := absurd rfl hne
  after hne := absurd rfl hne
  value _ hv := nomatch hv

theorem Gathered.committed {reads puts : List Bound} {evictions : List Eviction}
    {b g c p a : List Deed} {v : Value} {rs : List Request} {r : Except CallError Value}
    (hg : Gathered reads puts evictions b g c (.ok (v, rs)))
    (hc : Committed (reads ++ puts) evictions v rs p a r) :
    Protocol reads puts evictions r ⟨b, g, c, p, a⟩ where
  before := by
    obtain ⟨ts, hts, hb, hend | ⟨-, e, he⟩⟩ := hg.before
    · exact ⟨ts, hts, hb, .inl hend⟩
    · cases he
  gets := by
    obtain ⟨ts, hts, hb, hend | hend | ⟨-, e, he⟩⟩ := hg.gets
    · exact ⟨ts, hts, hb, .inl hend⟩
    · exact ⟨ts, hts, hb, .inr (.inl hend)⟩
    · cases he
  first := hg.first
  calls := hg.calls
  raised reason hr := nomatch hg.raised reason hr
  puts hne := ⟨v, (hg.value v rs rfl).2.2 fun hrs => hne (hc.idle hrs), hc.puts⟩
  after _ := ⟨⟨v, (hg.value v rs rfl).1⟩, hc.after⟩
  value w hw := hc.value w hw ▸ (hg.value v rs rfl).1

theorem runPhased_tracks (call : Call σ) (reads puts : List Bound) (evictions : List Eviction) :
    Tracks (Call.runPhased sv.logged h.logged call.logged reads puts evictions)
      (Call.runPhased sv h call reads puts evictions)
      (fun r u => ∃ p : Phases, u = p.all ∧ Protocol reads puts evictions r p) := by
  refine Tracks.bind (gather_tracks sv h call reads puts evictions) ?_ ?_
  · rintro e u ⟨b, g, c, rfl, hg⟩
    exact ⟨⟨b, g, c, [], []⟩, by simp [Phases.all], hg.failed⟩
  · rintro ⟨v, rs⟩ u ⟨b, g, c, rfl, hg⟩
    refine (commit_tracks sv h evictions v rs (hg.value v rs rfl).2.1).mono ?_
    rintro r u ⟨p, a, rfl, hc⟩
    exact ⟨⟨b, g, c, p, a⟩, by simp [Phases.all], hg.committed hc⟩

theorem ofBounds_phased {method : String} {bs : List Bound}
    (hs : ∀ b ∈ bs, b.operation.kind.isSync = false) :
    Plan.ofBounds method bs =
      .ok (.phased (bs.filter (·.isRead)) (bs.filter (·.isPut)) (bs.filterMap (·.eviction?))) := by
  have hany : (bs.filter (·.isRead)).any (·.operation.kind.isSync) = false := by
    rw [List.any_eq_false]
    intro b hb
    rw [hs b (List.mem_filter.1 hb).1]
    exact Bool.false_ne_true
  unfold Plan.ofBounds
  simp only [hany]
  rfl

theorem bind_description {call : Call σ} {args : List Value} {o : Operation} {b : Bound} {s s' : σ}
    (hb : sv.bind call args o s = .ok b s') : b.operation.description = o.description := by
  obtain ⟨d, s₁, hd, hb⟩ := bind_ok.1 hb
  obtain ⟨cs, s₂, -, hb⟩ := bind_ok.1 hb
  split at hb
  · cases hb
  · obtain ⟨rfl, -⟩ := pure_ok.1 hb
    exact sv.metadata_description (adapt_ok.1 hd)

theorem bindAll_description {call : Call σ} {args : List Value} {os : List Operation}
    {bs : List Bound} {s s' : σ} (hb : sv.bindAll call args os s = .ok bs s') :
    bs.map (·.operation.description) = os.map (·.description) := by
  induction os generalizing bs s s' with
  | nil =>
    obtain ⟨rfl, -⟩ := pure_ok.1 hb
    rfl
  | cons o os ih =>
    obtain ⟨b, s₁, hb₁, hb⟩ := bind_ok.1 hb
    obtain ⟨bs₁, s₂, hb₂, hb⟩ := bind_ok.1 hb
    obtain ⟨rfl, -⟩ := pure_ok.1 hb
    rw [List.map_cons, List.map_cons, bind_description sv hb₁, ih hb₂]

theorem bindAll_mem {call : Call σ} {args : List Value} {os : List Operation} {bs : List Bound}
    {s s' : σ} (hb : sv.bindAll call args os s = .ok bs s') :
    ∀ b ∈ bs, ∃ o ∈ os, ∃ t t', sv.bind call args o t = .ok b t' := by
  induction os generalizing bs s s' with
  | nil =>
    obtain ⟨rfl, -⟩ := pure_ok.1 hb
    exact fun b hb => absurd hb List.not_mem_nil
  | cons o os ih =>
    obtain ⟨b, s₁, hb₁, hb⟩ := bind_ok.1 hb
    obtain ⟨bs₁, s₂, hb₂, hb⟩ := bind_ok.1 hb
    obtain ⟨rfl, -⟩ := pure_ok.1 hb
    refine List.forall_mem_cons.2 ⟨⟨o, List.mem_cons_self, s, s₁, hb₁⟩, fun c hc => ?_⟩
    obtain ⟨p, hp, hbound⟩ := ih hb₂ c hc
    exact ⟨p, List.mem_cons_of_mem o hp, hbound⟩

theorem bindAll_isSync {call : Call σ} {args : List Value} {os : List Operation}
    {bs : List Bound} {s s' : σ} (hb : sv.bindAll call args os s = .ok bs s')
    (hs : ∀ o ∈ os, o.kind.isSync = false) : ∀ b ∈ bs, b.operation.kind.isSync = false := by
  intro b hm
  obtain ⟨o, ho, t, t', hbound⟩ := bindAll_mem sv hb b hm
  rw [Operation.isSync_of_description (bind_description sv hbound)]
  exact hs o ho

theorem execute_unbound {call : Call σ} {os : List Operation} {e : CallError} {s s' : σ}
    (hb : sv.bindAll call (spread call.method call.args) os s = .error e s') :
    call.execute sv h os s = .error e s' := by
  cases os with
  | nil => cases hb
  | cons o os =>
    have hplan : Call.plan sv call (o :: os) s = .error e s' := by
      change EStateM.bind _ _ s = _
      simp only [EStateM.bind, hb]
    change EStateM.bind _ _ s = _
    simp only [EStateM.bind, hplan]

theorem runPhased_nil (call : Call σ) (s : σ) :
    Call.runPhased sv h call [] [] [] s = call.invoked s := by
  change EStateM.bind (EStateM.bind call.invoked _) _ s = _
  unfold EStateM.bind
  cases call.invoked s <;> rfl

theorem execute_planned (call : Call σ) (os : List Operation) :
    call.execute sv h os = Call.plan sv call os >>= Call.run sv h call := by
  cases os with
  | nil =>
    funext s
    exact (runPhased_nil sv h call s).symm
  | cons o os => rfl

theorem execute_phased {call : Call σ} {os : List Operation}
    (hs : ∀ o ∈ os, o.kind.isSync = false) {bs : List Bound} {s s₁ : σ}
    (hb : sv.bindAll call (spread call.method call.args) os s = .ok bs s₁) :
    call.execute sv h os s = Call.runPhased sv h call (bs.filter (·.isRead)) (bs.filter (·.isPut))
      (bs.filterMap (·.eviction?)) s₁ := by
  cases os with
  | nil =>
    obtain ⟨rfl, rfl⟩ := pure_ok.1 hb
    exact (runPhased_nil sv h call s).symm
  | cons o os =>
    have hplan : Call.plan sv call (o :: os) s = .ok (.phased (bs.filter (·.isRead))
        (bs.filter (·.isPut)) (bs.filterMap (·.eviction?))) s₁ := by
      change EStateM.bind _ _ s = _
      simp only [EStateM.bind, hb, ofBounds_phased (bindAll_isSync sv hb hs)]
      rfl
    change EStateM.bind _ _ s = _
    simp only [EStateM.bind, hplan]
    rfl

/-- A read that is not synchronized, with or without a veto. -/
def Operation.IsPlainRead (o : Operation) : Prop := ∃ u, o.kind = .cacheable u false

theorem execute_reads {call : Call σ} {os : List Operation} (hos : ∀ o ∈ os, o.IsPlainRead) {bs : List Bound}
    (hbs : ∀ b ∈ bs, b.operation.IsPlainRead) {s s₁ : σ}
    (hb : sv.bindAll call (spread call.method call.args) os s = .ok bs s₁) :
    call.execute sv h os s = Call.runPhased sv h call bs [] [] s₁ := by
  have hs : ∀ o ∈ os, o.kind.isSync = false := by
    intro o ho
    obtain ⟨u, hu⟩ := hos o ho
    rw [hu]
    rfl
  have hreads : bs.filter (·.isRead) = bs := by
    refine List.filter_eq_self.2 fun b hb => ?_
    obtain ⟨u, hu⟩ := hbs b hb
    rw [Bound.isRead, hu]
  have hputs : bs.filter (·.isPut) = [] := by
    refine List.filter_eq_nil_iff.2 fun b hb => ?_
    obtain ⟨u, hu⟩ := hbs b hb
    simp [Bound.isPut, hu]
  have hevictions : bs.filterMap (·.eviction?) = [] := by
    refine List.filterMap_eq_nil_iff.2 fun b hb => ?_
    obtain ⟨u, hu⟩ := hbs b hb
    rw [Bound.eviction?, hu]
  rw [execute_phased sv h hs hb, hreads, hputs, hevictions]

theorem bindAll_logged {call : Call σ} {os : List Operation} {bs : List Bound} {s s₁ : σ}
    (hb : sv.bindAll call (spread call.method call.args) os s = .ok bs s₁) :
    sv.logged.bindAll call.logged (spread call.method call.args) os (s, []) = .ok bs (s₁, []) := by
  obtain ⟨u, hu, rfl⟩ := bindAll_silent sv call (spread call.method call.args) os s []
  rw [hu, hb]
  rfl

/-- Let none of the operations `os` be synchronized. Either `bindAll` fails and the log `t` is
    empty, or it gives `bs`, with the descriptions of `os` in their order, and `t` is as `Protocol`
    says for the reads, the puts and the evictions among `bs`. -/
theorem execute_protocol (call : Call σ) (os : List Operation)
    (hs : ∀ o ∈ os, o.kind.isSync = false) (s : σ) :
    ∃ t, call.logged.execute sv.logged h.logged os (s, []) = withLog (call.execute sv h os s) t ∧
      ((∃ e s', sv.bindAll call (spread call.method call.args) os s = .error e s' ∧
          call.execute sv h os s = .error e s' ∧ t = []) ∨
        ∃ bs s' p, sv.bindAll call (spread call.method call.args) os s = .ok bs s' ∧
          bs.map (·.operation.description) = os.map (·.description) ∧ t = p.all ∧
          Protocol (bs.filter (·.isRead)) (bs.filter (·.isPut)) (bs.filterMap (·.eviction?))
            (ended (call.execute sv h os s)) p) := by
  cases hb : sv.bindAll call (spread call.method call.args) os s with
  | error e s' =>
    obtain ⟨u, hu, rfl⟩ := bindAll_silent sv call (spread call.method call.args) os s []
    rw [hb] at hu
    have hlogged := execute_unbound sv.logged h.logged hu
    refine ⟨[], ?_, .inl ⟨e, s', rfl, execute_unbound sv h hb, rfl⟩⟩
    rw [hlogged, execute_unbound sv h hb]
    rfl
  | ok bs s₁ =>
    have hlogged := execute_phased sv.logged h.logged hs (bindAll_logged sv hb)
    obtain ⟨t, ht, p, rfl, hprot⟩ := runPhased_tracks sv h call (bs.filter (·.isRead))
      (bs.filter (·.isPut)) (bs.filterMap (·.eviction?)) s₁ []
    rw [← execute_phased sv h hs hb] at ht hprot
    exact ⟨p.all, hlogged.trans ht, .inr ⟨bs, s₁, p, rfl, bindAll_description sv hb, rfl, hprot⟩⟩

def shop : TypeDecl := .ofClass "Shop" none [] [{ name := "price", params := [⟨"item", "String"⟩] }]

def World.plain : World where
  managers := [(none, Manager.dynamic .map true)]
  heap := []
  sources := []
  wiring := { resolver := { manager := none } }
  handler := .rethrow

def priceCall (item price : Value) : Call World where
  target := ⟨shop, .null⟩
  method := ⟨"Shop", "price", [⟨"item", "String"⟩], .anyone, false, false⟩
  args := [item]
  invoke w := .ok price w

def readPrices : Operation := ⟨"", ["prices"], none, none, none, none, none, .cacheable none false⟩

def dropPrices : Operation := ⟨"", ["prices"], none, none, none, none, none, .evict true true⟩

theorem execute_protocol_price :
    (∀ o ∈ [readPrices, dropPrices], o.kind.isSync = false) ∧
      ∃ t, (priceCall (.str "tea") (.int 3)).logged.execute World.services.logged
          (ErrorHandler.logged .rethrow) [readPrices, dropPrices] (World.plain, []) =
        withLog ((priceCall (.str "tea") (.int 3)).execute World.services .rethrow
          [readPrices, dropPrices] World.plain) t ∧
      touches t = [.invalidate ⟨0, "prices"⟩, .get ⟨0, "prices"⟩ (.plain (.str "tea")), .invoke,
        .put ⟨0, "prices"⟩ (.plain (.str "tea")) (.int 3)] := by
  have hs : ∀ o ∈ [readPrices, dropPrices], o.kind.isSync = false := by decide
  obtain ⟨t, ht, -⟩ := execute_protocol World.services .rethrow
    (priceCall (.str "tea") (.int 3)) [readPrices, dropPrices] hs World.plain
  refine ⟨hs, t, ht, ?_⟩
  rw [← logOf_withLog _ t, ← ht]
  rfl

end CachedCalls
