import CachedCalls.Proofs.Execution.Meaning
import CachedCalls.Proofs.Execution.Protocol
import CachedCalls.Proofs.Execution.Told

set_option autoImplicit false

namespace CachedCalls

/-- If `v` says that the condition of its operation came to `p` without the result, it comes to `p`
    with every result. -/
def Verdict.Sound (v : Verdict) : Prop := ∀ p, v.2 = some p → ∀ r, v.1.judge r = .ok p

theorem Verdict.Sound.of_open (b : Bound) : Verdict.Sound (b, none) := fun _ hp => nomatch hp

theorem Verdict.Sound.judge_of_idle {v : Verdict} (hv : v.Sound) (he : Call.effective v = false)
    (r : ResultState) : v.1.judge r = .ok false := by
  refine hv false ?_ r
  obtain ⟨b, _ | _ | _⟩ := v
  · cases he
  · rfl
  · cases he

variable {σ : Type} (sv : Services σ) (h : ErrorHandler σ) (hsv : sv.Evaluates)

section

include hsv

theorem verdict_sound {b : Bound} {v : Verdict} {s s' : σ} (hv : Call.verdict sv b s = .ok v s') :
    v.Sound := by
  have ht := hsv.ended_test b .pending s
  unfold Call.verdict at hv
  cases htest : b.test sv .pending s with
  | ok p s₁ =>
    rw [htest] at hv ht
    cases hv
    rintro p ⟨⟩ r
    exact (b.judge_foretells r).eq_of_ok ht.symm
  | error e s₁ =>
    rw [htest] at hv
    cases e with
    | notAvailable n =>
      cases hv
      exact Verdict.Sound.of_open b
    | _ => cases hv

theorem verdicts_sound {bs : List Bound} {vs : List Verdict} {s s' : σ}
    (hvs : Call.verdicts sv bs s = .ok vs s') : ∀ v ∈ vs, v.Sound := by
  induction bs generalizing vs s s' with
  | nil =>
    obtain ⟨rfl, -⟩ := pure_ok.1 hvs
    exact fun v hv => nomatch hv
  | cons b bs ih =>
    obtain ⟨v, s₁, hv, hvs⟩ := bind_ok.1 hvs
    obtain ⟨ws, s₂, hws, hvs⟩ := bind_ok.1 hvs
    obtain ⟨rfl, -⟩ := pure_ok.1 hvs
    exact List.forall_mem_cons.2 ⟨verdict_sound sv hsv hv, ih hws⟩

theorem judge_of_settle {v : Verdict} (hv : v.Sound) {r : ResultState} {p : Bool} {s s' : σ}
    (hp : Call.settle sv r v s = .ok p s') : v.1.judge r = .ok p := by
  obtain ⟨b, kept⟩ := v
  cases kept with
  | none => exact hsv.judge_of_passes hp
  | some q =>
    obtain ⟨rfl, -⟩ := pure_ok.1 hp
    exact hv q rfl r

theorem requests_holds {vs : List Verdict} (hvs : ∀ v ∈ vs, v.Sound) {r : ResultState}
    {rs : List Request} {s s' : σ} (hrs : Call.requests sv r vs s = .ok rs s') :
    rs.map (·.bound) = (vs.map (·.1)).filter (·.holds r) := by
  induction vs generalizing rs s s' with
  | nil =>
    obtain ⟨rfl, -⟩ := pure_ok.1 hrs
    rfl
  | cons v vs ih =>
    obtain ⟨hv, hvs⟩ := List.forall_mem_cons.1 hvs
    obtain ⟨p, s₁, hp, hrs⟩ := bind_ok.1 hrs
    have hholds := Bound.holds_of_judge (judge_of_settle sv hsv hv hp)
    cases p with
    | false =>
      rw [List.map_cons, List.filter_cons_of_neg (by simp [hholds])]
      exact ih hvs hrs
    | true =>
      obtain ⟨k, s₂, -, hrs⟩ := bind_ok.1 hrs
      obtain ⟨rs', s₃, hrs', hrs⟩ := bind_ok.1 hrs
      obtain ⟨rfl, -⟩ := pure_ok.1 hrs
      rw [List.map_cons, List.map_cons, List.filter_cons_of_pos (by simp [hholds]), ih hvs hrs']

end

theorem Tracks.also {ε α : Type} {x : EStateM ε (Logged σ) α} {y : EStateM ε σ α}
    {P : Except ε α → List Deed → Prop} {Q : α → Prop} (hx : Tracks x y P)
    (hy : ∀ a s s', y s = .ok a s' → Q a) :
    Tracks x y (fun r u => P r u ∧ ∀ a, r = .ok a → Q a) := by
  intro s t
  obtain ⟨u, hu, hp⟩ := hx s t
  refine ⟨u, hu, hp, ?_⟩
  intro a ha
  cases hr : y s with
  | ok b q =>
    rw [hr] at ha
    cases ha
    exact hy a s q hr
  | error e q =>
    rw [hr] at ha
    cases ha

theorem Bound.not_isPut_of_isRead {b : Bound} (hb : b.isRead = true) : ¬ b.isPut = true := by
  unfold isRead at hb
  unfold isPut
  cases hk : b.operation.kind <;> simp_all

theorem Tracks.of_ok {ε α : Type} {x : EStateM ε (Logged σ) α} {y : EStateM ε σ α}
    {P : Except ε α → List Deed → Prop} (hx : Tracks x y P) {s s' : σ} {a : α}
    (hy : y s = .ok a s') : ∃ u, P (.ok a) u := by
  obtain ⟨u, -, hp⟩ := hx s []
  exact ⟨u, ended_ok hy ▸ hp⟩

theorem verdicts_bounds {bs : List Bound} {vs : List Verdict} {s s' : σ}
    (hvs : Call.verdicts sv bs s = .ok vs s') : vs.map (·.1) = bs := by
  obtain ⟨u, -, hmap⟩ := (verdicts_tracks sv bs).of_ok hvs
  exact hmap vs rfl

theorem search_requests {bs : List Bound} {x : Search} {s s' : σ}
    (hx : Call.search sv h bs s = .ok x s') : (x.requests.map (·.bound)).Sublist bs := by
  obtain ⟨u, hs⟩ := (search_tracks sv h bs).of_ok hx
  exact hs.requests x rfl

def Calls (u : List Deed) : Prop := ∃ d ∈ u, d.touch = .invoke

def Idle (puts : List Bound) : Prop := ∀ b ∈ puts, ∀ r, b.judge r = .ok false

theorem requests_any (v : Value) (vs : List Verdict) (missed : List Request) :
    Tracks (do
        let rs ← Call.requests sv.logged (.available v) vs
        pure (v, missed ++ rs))
      (do
        let rs ← Call.requests sv (.available v) vs
        pure (v, missed ++ rs))
      (fun _ _ => True) :=
  Tracks.bind (requests_tracks sv (.available v) vs) (fun _ _ _ => trivial)
    fun _ _ _ => Tracks.pure trivial

theorem commit_any (evictions : List Eviction) (v : Value) (rs : List Request) :
    Tracks (Call.commit sv.logged h.logged evictions v rs) (Call.commit sv h evictions v rs)
      (fun _ _ => True) :=
  (commit_tracks sv h evictions v rs (List.Sublist.refl (rs.map (·.bound)))).mono
    fun _ _ _ => trivial

theorem called_bind (call : Call σ) {α : Type} {f : Value → Act (Logged σ) α}
    {g : Value → Act σ α} (hf : ∀ v, Tracks (f v) (g v) (fun _ _ => True)) (p : Prop) :
    Tracks (call.logged.invoked >>= f) (call.invoked >>= g)
      (fun r u => ∀ x, r = .ok x → Calls u ∨ p) := by
  refine Tracks.bind (invoked_tracks call) (fun e u _ x hx => nomatch hx) ?_
  rintro v u ⟨q, rfl, -⟩
  exact (hf v).mono fun r w _ x hx => .inl ⟨_, List.mem_cons_self, rfl⟩

theorem renew_idle (call : Call σ) {puts : List Bound} {vs : List Verdict}
    (hvs : vs.map (·.1) = puts) (hsound : ∀ v ∈ vs, v.Sound) (v : Value) :
    Tracks (do
        let v ← call.logged.renew vs v
        let rs ← Call.requests sv.logged (.available v) vs
        pure (v, rs))
      (do
        let v ← call.renew vs v
        let rs ← Call.requests sv (.available v) vs
        pure (v, rs))
      (fun r u => ∀ x, r = .ok x → Calls u ∨ Idle puts) := by
  unfold Call.renew
  cases hany : vs.any Call.effective with
  | true => exact called_bind call (fun w => requests_any sv w vs []) (Idle puts)
  | false =>
    have hidle : Idle puts := by
      subst hvs
      intro b hb r
      obtain ⟨w, hw, rfl⟩ := List.mem_map.1 hb
      exact (hsound w hw).judge_of_idle (eq_false_of_ne_true (List.any_eq_false.1 hany w hw)) r
    refine Tracks.bind (Tracks.pure (P := fun _ _ => True) trivial) (fun _ _ _ _ _ => .inr hidle) ?_
    intro w u _
    exact (requests_any sv w vs []).mono fun _ _ _ _ _ => .inr hidle

section

include hsv

theorem gather_idle (call : Call σ) (reads puts : List Bound) (evictions : List Eviction) :
    Tracks (Call.gather sv.logged h.logged call.logged reads puts evictions)
      (Call.gather sv h call reads puts evictions)
      (fun r u => ∀ x, r = .ok x → Calls u ∨ Idle puts) := by
  have hlater {α : Type} {u : List Deed} {r : Except CallError α} {v : List Deed}
      (hv : ∀ x, r = .ok x → Calls v ∨ Idle puts) : ∀ x, r = .ok x → Calls (u ++ v) ∨ Idle puts :=
    fun x hx => (hv x hx).imp_left fun ⟨d, hd, hi⟩ => ⟨d, List.mem_append_right u hd, hi⟩
  refine Tracks.bind (evictAll_tracks sv h true .unset evictions) (fun _ _ _ x hx => nomatch hx) ?_
  intro _ u _
  refine Tracks.bind (search_tracks sv h reads) (fun _ _ _ x hx => nomatch hx) ?_
  intro x v _
  cases x with
  | hit w =>
    refine Tracks.bind ((verdicts_tracks sv puts).also fun vs s s' => verdicts_sound sv hsv)
      (fun _ _ _ x hx => nomatch hx) ?_
    rintro vs u ⟨⟨-, hmap⟩, hsound⟩
    exact (renew_idle sv call (hmap vs rfl) (hsound vs rfl) w).mono
      fun r u hu => hlater (hlater (hlater hu))
  | missed rs =>
    -- Without a value that was found the method is called in any case.
    exact (called_bind call (fun w => requests_any sv w _ rs) (Idle puts)).mono
      fun r u hu => hlater (hlater hu)

theorem runPhased_idle (call : Call σ) (reads puts : List Bound) (evictions : List Eviction) :
    Tracks (Call.runPhased sv.logged h.logged call.logged reads puts evictions)
      (Call.runPhased sv h call reads puts evictions)
      (fun r u => ∀ x, r = .ok x → Calls u ∨ Idle puts) := by
  refine Tracks.bind (gather_idle sv h hsv call reads puts evictions)
    (fun _ _ _ x hx => nomatch hx) ?_
  rintro ⟨v, rs⟩ u hu
  refine (commit_any sv h evictions v rs).mono fun r w _ x _ => (hu _ rfl).imp_left ?_
  rintro ⟨d, hd, hi⟩
  exact ⟨d, List.mem_append_left w hd, hi⟩

theorem gather_requests {call : Call σ} {bs : List Bound} {evictions : List Eviction} {v : Value}
    {rs : List Request} {s s' : σ}
    (hg : Call.gather sv h call (bs.filter (·.isRead)) (bs.filter (·.isPut)) evictions s =
      .ok (v, rs) s') :
    (rs.filter (·.bound.isPut)).map (·.bound) =
      (bs.filter (·.isPut)).filter (·.holds (.available v)) := by
  have hall {qs : List Request}
      (hqs : qs.map (·.bound) = (bs.filter (·.isPut)).filter (·.holds (.available v))) :
      (qs.filter (·.bound.isPut)).map (·.bound) =
        (bs.filter (·.isPut)).filter (·.holds (.available v)) := by
    rw [List.filter_eq_self.2, hqs]
    intro q hq
    have hm := List.mem_map_of_mem (f := (·.bound)) hq
    rw [hqs] at hm
    exact (List.mem_filter.1 (List.mem_filter.1 hm).1).2
  obtain ⟨_, s₁, -, hg⟩ := bind_ok.1 hg
  obtain ⟨x, s₂, hx, hg⟩ := bind_ok.1 hg
  cases x with
  | hit w =>
    obtain ⟨vs, s₃, hvs, hg⟩ := bind_ok.1 hg
    obtain ⟨w', s₄, -, hg⟩ := bind_ok.1 hg
    obtain ⟨qs, s₅, hqs, hg⟩ := bind_ok.1 hg
    cases (pure_ok.1 hg).1
    refine hall ?_
    rw [requests_holds sv hsv (verdicts_sound sv hsv hvs) hqs, verdicts_bounds sv hvs]
  | missed ms =>
    obtain ⟨w', s₄, -, hg⟩ := bind_ok.1 hg
    obtain ⟨qs, s₅, hqs, hg⟩ := bind_ok.1 hg
    cases (pure_ok.1 hg).1
    have hms : ms.filter (·.bound.isPut) = [] := by
      rw [List.filter_eq_nil_iff]
      intro m hm
      have hb := (search_requests sv h hx).subset (List.mem_map_of_mem (f := (·.bound)) hm)
      exact Bound.not_isPut_of_isRead (List.mem_filter.1 hb).2
    rw [List.filter_append, hms, List.nil_append]
    refine hall ?_
    rw [requests_holds sv hsv _ hqs, List.map_map]
    · exact congrArg _ (List.map_id _)
    · intro w hw
      obtain ⟨b, -, rfl⟩ := List.mem_map.1 hw
      exact Verdict.Sound.of_open b

/-- Let the operations `os`, none of them synchronized, be bound as `bs`. If the call gives a value
    without calling the method, the condition of each put in `bs` is false for every result. If
    `gather` gives the value `v` and the requests `rs`, the puts among `rs` are those of `bs` whose
    condition is true of `v`. If the services tell `os` apart, `bs` are `os` themselves. -/
theorem execute_decided (call : Call σ) (os : List Operation)
    (hs : ∀ o ∈ os, o.kind.isSync = false) {bs : List Bound} {s s₁ : σ}
    (hb : sv.bindAll call (spread call.method call.args) os s = .ok bs s₁) :
    (∀ v s' t, call.logged.execute sv.logged h.logged os (s, []) = .ok v (s', t) →
      (∀ d ∈ t, d.touch ≠ .invoke) →
      ∀ b ∈ bs, b.isPut = true → ∀ r, b.judge (.available r) = .ok false) ∧
    (∀ v rs s₂, Call.gather sv h call (bs.filter (·.isRead)) (bs.filter (·.isPut))
        (bs.filterMap (·.eviction?)) s₁ = .ok (v, rs) s₂ →
      call.execute sv h os s = Call.commit sv h (bs.filterMap (·.eviction?)) v rs s₂ ∧
      (rs.filter (·.bound.isPut)).map (·.bound) =
        (bs.filter (·.isPut)).filter (·.holds (.available v))) ∧
    (sv.Tells os call.method call.target.type s → bs.map (·.operation) = os) := by
  refine ⟨?_, ?_, fun htells => htells.bindAll hb⟩
  · intro v s' t hrun hno b hb' hput r
    obtain ⟨u, hu, hidle⟩ := runPhased_idle sv h hsv call (bs.filter (·.isRead))
      (bs.filter (·.isPut)) (bs.filterMap (·.eviction?)) s₁ []
    have hlogged := execute_phased sv.logged h.logged hs (bindAll_logged sv hb)
    obtain ⟨hv, rfl⟩ := withLog_ok (hu.symm.trans (hlogged.symm.trans hrun))
    obtain ⟨d, hd, hi⟩ | hidle := hidle v (ended_ok hv)
    · exact absurd hi (hno d hd)
    · exact hidle b (List.mem_filter.2 ⟨hb', hput⟩) (.available r)
  · intro v rs s₂ hg
    refine ⟨?_, gather_requests sv h hsv hg⟩
    rw [execute_phased sv h hs hb]
    change EStateM.bind _ _ s₁ = _
    simp only [EStateM.bind, hg]

end

def World.stocked (k : Key) (price : Value) : World where
  managers := [(none, .leaf .map true true [("prices", 0)])]
  heap := [.map ⟨"prices", true, [(k, price)], {}⟩]
  sources := []
  wiring := { resolver := { manager := none } }
  handler := .rethrow

def keepMilk : Operation :=
  ⟨"", ["prices"], none, none, none, none, some "#item == 'milk'", .put none⟩

def findTea : EStateM.Result CallError (Logged World) Value :=
  (priceCall (.str "tea") (.int 3)).logged.execute World.services.logged (ErrorHandler.logged .rethrow)
    [readPrices, keepMilk] (World.stocked (.plain (.str "tea")) (.int 2), [])

theorem execute_decided_milk :
    (∀ o ∈ [readPrices, keepMilk], o.kind.isSync = false) ∧
      (World.stocked (.plain (.str "tea")) (.int 2)).Tells [readPrices, keepMilk]
        (priceCall (.str "tea") (.int 3)).method shop ∧
      (ended findTea).toOption = some (.int 2) ∧
      ∃ bs s₁, World.services.bindAll (priceCall (.str "tea") (.int 3)) [.str "tea"]
          [readPrices, keepMilk] (World.stocked (.plain (.str "tea")) (.int 2)) = .ok bs s₁ ∧
        bs.map (·.operation) = [readPrices, keepMilk] ∧
        ∀ b ∈ bs, b.isPut = true → ∀ r, b.judge (.available r) = .ok false := by
  have hs : ∀ o ∈ [readPrices, keepMilk], o.kind.isSync = false := by decide
  have htells : (World.stocked (.plain (.str "tea")) (.int 2)).Tells [readPrices, keepMilk]
      (priceCall (.str "tea") (.int 3)).method shop :=
    ⟨by decide +kernel, fun o _ => World.knows_of_none rfl⟩
  have hvalue : (ended findTea).toOption = some (.int 2) := by decide +kernel
  have hlog : ∀ d ∈ logOf findTea, d.isHit = true := by decide +kernel
  obtain ⟨hidle, -, htold⟩ := execute_decided World.services .rethrow World.services_evaluates
    (priceCall (.str "tea") (.int 3)) [readPrices, keepMilk] hs
    (s := World.stocked (.plain (.str "tea")) (.int 2)) rfl
  refine ⟨hs, htells, hvalue, _, _, rfl, htold (World.services_tells htells), ?_⟩
  cases hrun : findTea with
  | error e q =>
    rw [hrun] at hvalue
    cases hvalue
  | ok v q =>
    rw [hrun] at hlog
    refine hidle v q.1 q.2 hrun fun d hd hi => ?_
    have hhit := hlog d hd
    rw [Deed.isHit, hi] at hhit
    cases hhit

/-- This put has the description of `vetoedPut`: its condition, which is false of tea, goes on with
    the text that stands between a condition and a veto. -/
def quotedPut : Operation :=
  ⟨"", ["prices"], none, none, none, none, some "#item == 'tea'' | unless=''x'.isEmpty() and 'y'",
    .put none⟩

def vetoedPut : Operation :=
  ⟨"", ["prices"], none, none, none, none, some "#item == 'tea'",
    .put (some "'x'.isEmpty() and 'y'' | unless='")⟩

def findQuoted : EStateM.Result CallError (Logged World) Value :=
  (priceCall (.str "tea") (.int 3)).logged.execute World.services.logged (ErrorHandler.logged .rethrow)
    [readPrices, quotedPut, vetoedPut] (World.stocked (.plain (.str "tea")) (.int 2), [])

/-- Of `quotedPut` and `vetoedPut` the second is bound with the metadata of the first. So the price
    in the cache is given without a call of the method, though the condition of `vetoedPut` is true
    for every result. -/
theorem execute_decided_quoted :
    (∀ o ∈ [readPrices, quotedPut, vetoedPut], o.kind.isSync = false) ∧
      (ended findQuoted).toOption = some (.int 2) ∧
      (∀ d ∈ logOf findQuoted, d.touch ≠ .invoke) ∧
      ∃ b s₁, World.services.bindAll (priceCall (.str "tea") (.int 3)) [.str "tea"] [vetoedPut]
          (World.stocked (.plain (.str "tea")) (.int 2)) = .ok [b] s₁ ∧
        b.operation = vetoedPut ∧ b.isPut = true ∧ ∀ r, b.judge (.available r) = .ok true := by
  have hlog : ∀ d ∈ logOf findQuoted, d.isHit = true := by decide +kernel
  refine ⟨by decide, by decide +kernel, fun d hd hi => ?_, _, _, rfl, rfl, rfl, fun r => ?_⟩
  · have hhit := hlog d hd
    rw [Deed.isHit, hi] at hhit
    cases hhit
  · exact (Bound.judge_foretells _ (.available r)).eq_of_ok (Bound.judge_of_holds (by decide +kernel))

end CachedCalls
