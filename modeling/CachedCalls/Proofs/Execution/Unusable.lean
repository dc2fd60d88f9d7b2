import CachedCalls.Proofs.Execution.Decision
import CachedCalls.Proofs.Execution.Raise

set_option autoImplicit false

namespace CachedCalls

variable {σ ε α β : Type}

theorem bind_error {x : EStateM ε σ α} {f : α → EStateM ε σ β} {s s' : σ} {e : ε} :
    (x >>= f) s = .error e s' ↔
      x s = .error e s' ∨ ∃ a s₁, x s = .ok a s₁ ∧ f a s₁ = .error e s' := by
  change EStateM.bind x f s = _ ↔ _
  unfold EStateM.bind
  cases x s with
  | ok a s₁ =>
    refine ⟨fun h => .inr ⟨a, s₁, rfl, h⟩, ?_⟩
    rintro (⟨⟨⟩⟩ | ⟨_, _, ⟨⟩, h⟩)
    exact h
  | error e₁ s₁ => simp

theorem map_error {x : EStateM ε σ α} {f : α → β} {s s' : σ} {e : ε} :
    (f <$> x) s = .error e s' ↔ x s = .error e s' := by
  rw [map_eq_pure_bind, bind_error, or_iff_left]
  rintro ⟨a, s₁, -, h⟩
  cases h

namespace Call

variable (sv : Services σ) (h : ErrorHandler σ)

def demand (r : ResultState) (v : Verdict) : Act σ (Option Key) := do
  if ← settle sv r v then some <$> v.1.key sv r else pure none

def asked (b : Bound) (k : Option Key) (rs : List Request) : List Request :=
  k.elim rs fun k => ⟨b, k⟩ :: rs

theorem requests_cons (r : ResultState) (v : Verdict) (vs : List Verdict) :
    requests sv r (v :: vs) = (demand sv r v >>= fun k => asked v.1 k <$> requests sv r vs) := by
  simp only [requests, demand, map_eq_pure_bind, bind_assoc]
  refine congrArg _ (funext fun p => ?_)
  cases p with
  | false => simp [asked]
  | true => simp [asked]

def missedBy (b : Bound) (k : Key) : Search → Search
  | .hit v => .hit v
  | .missed rs => .missed (⟨b, k⟩ :: rs)

theorem search_cons (b : Bound) (bs : List Bound) :
    search sv h (b :: bs) = (do
      match ← demand sv .unset (b, none) with
      | none => search sv h bs
      | some k =>
        match ← firstHit sv h k b.caches with
        | some v => pure (.hit v)
        | none => missedBy b k <$> search sv h bs) := by
  simp only [search, demand, settle, map_eq_pure_bind, bind_assoc]
  refine congrArg _ (funext fun p => ?_)
  cases p with
  | false => simp
  | true =>
    simp only [if_true, bind_assoc, pure_bind]
    refine congrArg _ (funext fun k => congrArg _ (funext fun found => ?_))
    cases found with
    | some v => rfl
    | none => exact congrArg (search sv h bs >>= ·) (funext fun x => by cases x <;> rfl)

theorem guard_raises (acc : Access) (a : α) (x : EStateM CacheError σ α) :
    Raises (fun e => ∃ c, e = .cache c) (h.guard acc a x) := by
  intro s e s' hs
  unfold ErrorHandler.guard at hs
  split at hs
  · cases hs
  · split at hs
    · cases hs
    · cases hs
      exact ⟨_, rfl⟩

theorem firstHit_raises (k : Key) (cs : List CacheRef) :
    Raises (fun e => ∃ c, e = .cache c) (firstHit sv h k cs) := by
  induction cs with
  | nil => exact Raises.pure none
  | cons c cs ih =>
    refine Raises.bind (guard_raises h _ _ _) fun found => ?_
    cases found with
    | some v => exact Raises.pure (some v)
    | none => exact ih

theorem loop_error {β α γ : Type} (loop : List β → Act σ γ) (step : β → Act σ α)
    (add : β → α → γ → γ) {c : γ} (hnil : loop [] = pure c)
    (hcons : ∀ b bs, loop (b :: bs) = step b >>= fun a => add b a <$> loop bs) {bs : List β}
    {s s' : σ} {e : CallError} :
    loop bs s = .error e s' ↔ ∃ before b rest c s₁, bs = before ++ b :: rest ∧
      loop before s = .ok c s₁ ∧ step b s₁ = .error e s' := by
  induction bs generalizing s with
  | nil =>
    rw [hnil]
    refine ⟨fun hs => (nomatch hs), ?_⟩
    rintro ⟨before, b, rest, c, s₁, hbs, -⟩
    cases before <;> cases hbs
  | cons d bs ih =>
    simp only [hcons, bind_error, map_error]
    constructor
    · rintro (hd | ⟨a, s₁, ha, hrest⟩)
      · exact ⟨[], d, bs, c, s, rfl, by rw [hnil]; rfl, hd⟩
      · obtain ⟨before, b, rest, c, s₂, rfl, hbefore, hb⟩ := ih.1 hrest
        refine ⟨d :: before, b, rest, add d a c, s₂, rfl, ?_, hb⟩
        rw [hcons, bind_of_ok ha, map_eq_pure_bind, bind_of_ok hbefore]
        rfl
    · rintro ⟨before, b, rest, c', s₁, hbs, hbefore, hb⟩
      cases before with
      | nil =>
        rw [hnil] at hbefore
        obtain ⟨-, rfl⟩ := pure_ok.1 hbefore
        cases hbs
        exact .inl hb
      | cons d' before =>
        obtain ⟨rfl, rfl⟩ := List.cons.inj hbs
        rw [hcons] at hbefore
        obtain ⟨a, s₂, ha, hbefore⟩ := bind_ok.1 hbefore
        rw [map_eq_pure_bind] at hbefore
        obtain ⟨c'', s₃, hc, hend⟩ := bind_ok.1 hbefore
        obtain ⟨-, rfl⟩ := pure_ok.1 hend
        exact .inr ⟨a, s₂, ha, ih.2 ⟨before, b, rest, c'', s₃, rfl, hc, hb⟩⟩

theorem requests_error {r : ResultState} {vs : List Verdict} {s s' : σ} {e : CallError} :
    requests sv r vs s = .error e s' ↔ ∃ before v rest rs s₁, vs = before ++ v :: rest ∧
      requests sv r before s = .ok rs s₁ ∧ demand sv r v s₁ = .error e s' :=
  loop_error (requests sv r) (demand sv r) (fun v => asked v.1) rfl (requests_cons sv r)

theorem verdicts_error {bs : List Bound} {s s' : σ} {e : CallError} :
    verdicts sv bs s = .error e s' ↔ ∃ before b rest vs s₁, bs = before ++ b :: rest ∧
      verdicts sv before s = .ok vs s₁ ∧ verdict sv b s₁ = .error e s' := by
  refine loop_error (verdicts sv) (verdict sv) (fun _ => List.cons) rfl fun b bs => ?_
  simp only [verdicts, map_eq_pure_bind]

theorem search_of_demand {before rest : List Bound} {b : Bound} {ms : List Request} {s s₁ s' : σ}
    {e : CallError} (hbefore : search sv h before s = .ok (.missed ms) s₁)
    (hb : demand sv .unset (b, none) s₁ = .error e s') :
    search sv h (before ++ b :: rest) s = .error e s' := by
  induction before generalizing s ms with
  | nil =>
    obtain ⟨-, rfl⟩ := pure_ok.1 hbefore
    rw [List.nil_append, search_cons, bind_of_error hb]
  | cons c before ih =>
    rw [search_cons] at hbefore
    obtain ⟨k, s₂, hk, hbefore⟩ := bind_ok.1 hbefore
    rw [List.cons_append, search_cons, bind_of_ok hk]
    cases k with
    | none => exact ih hbefore
    | some k =>
      obtain ⟨found, s₃, hfound, hbefore⟩ := bind_ok.1 hbefore
      cases found with
      | some v => cases (pure_ok.1 hbefore).1
      | none =>
        simp only [map_eq_pure_bind] at hbefore
        obtain ⟨x, s₄, hx, hend⟩ := bind_ok.1 hbefore
        obtain ⟨hmissed, rfl⟩ := pure_ok.1 hend
        cases x with
        | hit v => cases hmissed
        | missed rs => exact (bind_of_ok hfound).trans (map_error.2 (ih hx))

theorem search_error {bs : List Bound} {s s' : σ} {e : CallError}
    (he : search sv h bs s = .error e s') :
    (∃ c, e = .cache c) ∨ ∃ before b rest ms s₁, bs = before ++ b :: rest ∧
      search sv h before s = .ok (.missed ms) s₁ ∧
      demand sv .unset (b, none) s₁ = .error e s' := by
  induction bs generalizing s with
  | nil => cases he
  | cons b bs ih =>
    rw [search_cons] at he
    obtain hb | ⟨k, s₁, hk, he⟩ := bind_error.1 he
    · exact .inr ⟨[], b, bs, [], s, rfl, rfl, hb⟩
    cases k with
    | none =>
      refine (ih he).imp_right ?_
      rintro ⟨before, c, rest, ms, s₂, rfl, hbefore, hc⟩
      refine ⟨b :: before, c, rest, ms, s₂, rfl, ?_, hc⟩
      rw [search_cons, bind_of_ok hk]
      exact hbefore
    | some k =>
      obtain he | ⟨found, s₂, hfound, he⟩ := bind_error.1 he
      · exact .inl (firstHit_raises sv h k b.caches _ _ _ he)
      cases found with
      | some v => cases he
      | none =>
        refine (ih (map_error.1 he)).imp_right ?_
        rintro ⟨before, c, rest, ms, s₃, rfl, hbefore, hc⟩
        refine ⟨b :: before, c, rest, ⟨b, k⟩ :: ms, s₃, rfl, ?_, hc⟩
        rw [search_cons, bind_of_ok hk]
        exact (bind_of_ok hfound).trans (bind_of_ok hbefore)

def produce (call : Call σ) (reads puts : List Bound) (evictions : List Eviction) :
    Act σ (Value × List Verdict × List Request) := do
  evictAll sv h true .unset evictions
  match ← search sv h reads with
  | .hit v => do
    let vs ← verdicts sv puts
    let v ← call.renew vs v
    pure (v, vs, [])
  | .missed missed => do
    let v ← call.invoked
    pure (v, puts.map (·, none), missed)

theorem gather_eq (call : Call σ) (reads puts : List Bound) (evictions : List Eviction) :
    gather sv h call reads puts evictions = (produce sv h call reads puts evictions >>= fun x =>
      (fun rs => (x.1, x.2.2 ++ rs)) <$> requests sv (.available x.1) x.2.1) := by
  simp only [gather, produce, map_eq_pure_bind, bind_assoc]
  refine congrArg _ (funext fun _ => congrArg _ (funext fun x => ?_))
  cases x <;> simp

/-- A condition or a key fails with `e`: of a read as it is searched for (`read`), of a put whose
    condition is tried after a hit (`tried`), or as it is found out what to store with the value of
    the call (`stored`). -/
inductive Unusable (call : Call σ) (reads puts : List Bound) (evictions : List Eviction) (s : σ)
    (e : CallError) : Prop where
  | read {before rest : List Bound} {b : Bound} {ms : List Request} {s₁ s₂ s' : σ}
      (hevicted : evictAll sv h true .unset evictions s = .ok () s₁)
      (hreads : reads = before ++ b :: rest)
      (hbefore : search sv h before s₁ = .ok (.missed ms) s₂)
      (hb : demand sv .unset (b, none) s₂ = .error e s')
  | tried {before rest : List Bound} {b : Bound} {v : Value} {vs : List Verdict} {s₁ s₂ s₃ s' : σ}
      (hevicted : evictAll sv h true .unset evictions s = .ok () s₁)
      (hsearch : search sv h reads s₁ = .ok (.hit v) s₂)
      (hputs : puts = before ++ b :: rest) (hbefore : verdicts sv before s₂ = .ok vs s₃)
      (hb : verdict sv b s₃ = .error e s')
  | stored {before rest : List Verdict} {w : Verdict} {v : Value} {vs : List Verdict}
      {ms rs : List Request} {s₁ s₂ s' : σ}
      (hproduce : produce sv h call reads puts evictions s = .ok (v, vs, ms) s₁)
      (hvs : vs = before ++ w :: rest)
      (hbefore : requests sv (.available v) before s₁ = .ok rs s₂)
      (hw : demand sv (.available v) w s₂ = .error e s')

variable {sv h} {call : Call σ} {reads puts : List Bound} {evictions : List Eviction}

theorem Unusable.gather_error {s : σ} {e : CallError}
    (hu : Unusable sv h call reads puts evictions s e) :
    ∃ s', gather sv h call reads puts evictions s = .error e s' := by
  cases hu with
  | @read _ _ _ _ _ _ s' hevicted hreads hbefore hb =>
    subst hreads
    refine ⟨s', (bind_of_ok hevicted).trans ?_⟩
    exact bind_of_error (search_of_demand sv h hbefore hb)
  | @tried _ _ _ _ _ _ _ _ s' hevicted hsearch hputs hbefore hb =>
    have hverdicts := (verdicts_error sv).2 ⟨_, _, _, _, _, hputs, hbefore, hb⟩
    refine ⟨s', (bind_of_ok hevicted).trans ((bind_of_ok hsearch).trans ?_)⟩
    exact bind_of_error hverdicts
  | @stored _ _ _ _ _ _ _ _ _ s' hproduce hvs hbefore hw =>
    have hrequests := (requests_error sv).2 ⟨_, _, _, _, _, hvs, hbefore, hw⟩
    refine ⟨s', ?_⟩
    rw [gather_eq, bind_of_ok hproduce]
    exact map_error.2 hrequests

theorem unusable_of_gather {s s' : σ} {e : CallError}
    (he : gather sv h call reads puts evictions s = .error e s') :
    Unusable sv h call reads puts evictions s e ∨
      (∃ s₁, evictAll sv h true .unset evictions s = .error e s₁) ∨ (∃ c, e = .cache c) ∨
      ∃ r, e = .invocation r := by
  have hinvoked : Raises (fun e => ∃ r, e = .invocation r) call.invoked :=
    Raises.adapt call.invoke fun r => ⟨r, rfl⟩
  rw [gather_eq] at he
  obtain he | ⟨⟨v, vs, ms⟩, s₁, hproduce, he⟩ := bind_error.1 he
  · obtain he | ⟨_, s₁, hevicted, he⟩ := bind_error.1 he
    · exact .inr (.inl ⟨s', he⟩)
    obtain he | ⟨x, s₂, hsearch, he⟩ := bind_error.1 he
    · obtain hc | ⟨before, b, rest, ms, s₂, hreads, hbefore, hb⟩ := search_error sv h he
      · exact .inr (.inr (.inl hc))
      · exact .inl (.read hevicted hreads hbefore hb)
    cases x with
    | missed ms =>
      obtain he | ⟨v, s₃, -, he⟩ := bind_error.1 he
      · exact .inr (.inr (.inr (hinvoked _ _ _ he)))
      · cases he
    | hit v =>
      obtain he | ⟨vs, s₃, -, he⟩ := bind_error.1 he
      · obtain ⟨before, b, rest, vs, s₃, hputs, hbefore, hb⟩ := (verdicts_error sv).1 he
        exact .inl (.tried hevicted hsearch hputs hbefore hb)
      obtain he | ⟨v, s₄, -, he⟩ := bind_error.1 he
      · unfold renew at he
        split at he
        · exact .inr (.inr (.inr (hinvoked _ _ _ he)))
        · cases he
      · cases he
  · obtain ⟨before, w, rest, rs, s₂, hvs, hbefore, hw⟩ := (requests_error sv).1 (map_error.1 he)
    exact .inl (.stored hproduce hvs hbefore hw)

end Call

variable (sv : Services σ) (h : ErrorHandler σ)

/-- The deed `d` is no put. -/
def Deed.Spares (d : Deed) : Prop := ∀ c k v, d.touch ≠ .put c k v

theorem Course.of_mem {β : Type} {aims : β → Key → List Touch} {bs : List β} {ts : List Touch}
    (hts : Course aims bs ts) : ∀ a ∈ ts, ∃ b ∈ bs, ∃ k, a ∈ aims b k := by
  induction hts with
  | nil => exact fun a ha => nomatch ha
  | skip _ ih =>
    intro a ha
    obtain ⟨b, hb, hk⟩ := ih a ha
    exact ⟨b, List.mem_cons_of_mem _ hb, hk⟩
  | take k _ ih =>
    intro a ha
    obtain ha | ha := List.mem_append.1 ha
    · exact ⟨_, List.mem_cons_self, k, ha⟩
    · obtain ⟨b, hb, hk⟩ := ih a ha
      exact ⟨b, List.mem_cons_of_mem _ hb, hk⟩

theorem Eviction.aim_ne_put (e : Eviction) (k : Key) (c c' : CacheRef) (k' : Key) (v : Value) :
    e.aim k c ≠ .put c' k' v := by
  unfold Eviction.aim
  split <;> split <;> exact nofun

theorem Gathered.spares {reads puts : List Bound} {evictions : List Eviction} {b g c : List Deed}
    {r : Except CallError (Value × List Request)}
    (hg : Gathered reads puts evictions b g c r) : ∀ d ∈ b ++ g ++ c, d.Spares := by
  intro d hd c' k v hput
  rw [List.append_assoc, List.mem_append, List.mem_append] at hd
  have htouch {u : List Deed} (hd : d ∈ u) : .put c' k v ∈ touches u :=
    hput ▸ List.mem_map_of_mem hd
  obtain hd | hd | hd := hd
  · obtain ⟨ts, hts, horder, -⟩ := hg.before
    obtain ⟨e, -, k', ha⟩ := hts.of_mem _ (horder.subset (htouch hd))
    obtain ⟨c'', -, ha⟩ := List.mem_map.1 ha
    exact e.aim_ne_put k' c'' c' k v ha
  · obtain ⟨ts, hts, horder, -⟩ := hg.gets
    obtain ⟨b', -, k', ha⟩ := hts.of_mem _ (horder.subset (htouch hd))
    obtain ⟨c'', -, ha⟩ := List.mem_map.1 ha
    cases ha
  · obtain rfl | ⟨q, rfl⟩ := hg.calls
    · cases hd
    · cases List.mem_singleton.1 hd
      cases hput

/-- The request `rq` with the key that was drawn for it, and with nothing left to draw one from. -/
def Request.bare (rq : Request) : Request :=
  { rq with
    bound := { rq.bound with
      metadata := { rq.bound.metadata with
        operation := { rq.bound.operation with condition := none, key := none }
        generator := fun _ _ _ => .plain .null } } }

theorem commit_bare (evictions : List Eviction) (v : Value) (rs : List Request) :
    Call.commit sv h evictions v (rs.map Request.bare) = Call.commit sv h evictions v rs := by
  have hstore : (rs.map Request.bare).forM (Call.store sv h v) = rs.forM (Call.store sv h v) := by
    induction rs with
    | nil => rfl
    | cons rq rs ih => exact congrArg (Call.store sv h v rq >>= ·) (funext fun _ => ih)
  unfold Call.commit
  rw [hstore]

/-- Let the operations `os`, none of them synchronized, be bound as `bs`. If a condition or a key
    fails with `e` (`Call.Unusable`), the call ends with `e` and its log has no put. If `gather`
    fails in another way, it is with the error of an eviction, of a cache or of the method. If
    `gather` gives `rs`, the call goes on with `commit`, for which `Request.bare` leaves all that
    counts of `rs`. If the services tell `os` apart, `bs` are `os` themselves. -/
theorem execute_unusable (call : Call σ) (os : List Operation)
    (hs : ∀ o ∈ os, o.kind.isSync = false) {bs : List Bound} {s s₁ : σ}
    (hb : sv.bindAll call (spread call.method call.args) os s = .ok bs s₁) :
    (∀ e, Call.Unusable sv h call (bs.filter (·.isRead)) (bs.filter (·.isPut))
        (bs.filterMap (·.eviction?)) s₁ e →
      ∃ s' t, call.logged.execute sv.logged h.logged os (s, []) = .error e (s', t) ∧
        ∀ d ∈ t, d.Spares) ∧
    (∀ e s', Call.gather sv h call (bs.filter (·.isRead)) (bs.filter (·.isPut))
        (bs.filterMap (·.eviction?)) s₁ = .error e s' →
      Call.Unusable sv h call (bs.filter (·.isRead)) (bs.filter (·.isPut))
          (bs.filterMap (·.eviction?)) s₁ e ∨
        (∃ s₂, Call.evictAll sv h true .unset (bs.filterMap (·.eviction?)) s₁ = .error e s₂) ∨
        (∃ c, e = .cache c) ∨ ∃ r, e = .invocation r) ∧
    (∀ v rs s', Call.gather sv h call (bs.filter (·.isRead)) (bs.filter (·.isPut))
        (bs.filterMap (·.eviction?)) s₁ = .ok (v, rs) s' →
      call.execute sv h os s =
        Call.commit sv h (bs.filterMap (·.eviction?)) v (rs.map Request.bare) s') ∧
    (sv.Tells os call.method call.target.type s → bs.map (·.operation) = os) := by
  refine ⟨fun e he => ?_, fun e s' he => Call.unusable_of_gather he, fun v rs s' hg => ?_,
    fun htells => htells.bindAll hb⟩
  · obtain ⟨s', hg⟩ := he.gather_error
    obtain ⟨u, hu, b, g, c, rfl, hgathered⟩ := gather_tracks sv h call (bs.filter (·.isRead))
      (bs.filter (·.isPut)) (bs.filterMap (·.eviction?)) s₁ []
    rw [hg] at hu
    refine ⟨s', b ++ g ++ c, ?_, hgathered.spares⟩
    rw [execute_phased sv.logged h.logged hs (bindAll_logged sv hb)]
    exact bind_of_error hu
  · rw [execute_phased sv h hs hb, commit_bare]
    exact bind_of_ok hg

def keepNowhere : Operation := ⟨"", ["prices"], some "null", none, none, none, none, .put none⟩

def gatherNowhere : EStateM.Result CallError World (Value × List Request) :=
  (World.services.bindAll (priceCall (.str "tea") (.int 3)) [.str "tea"] [readPrices, keepNowhere] >>=
    fun bs => Call.gather World.services .rethrow (priceCall (.str "tea") (.int 3))
      (bs.filter (·.isRead)) (bs.filter (·.isPut)) (bs.filterMap (·.eviction?))) World.plain

theorem gatherNowhere_error :
    ∃ w, gatherNowhere = .error (.nullKey keepNowhere.description) w := by
  have herror : (match gatherNowhere with | .ok _ _ => none | .error e _ => some e) =
      some (.nullKey keepNowhere.description) := by decide +kernel
  cases hg : gatherNowhere with
  | ok x w => rw [hg] at herror; cases herror
  | error e w => rw [hg] at herror; cases herror; exact ⟨w, rfl⟩

theorem execute_unusable_nowhere :
    (∀ o ∈ [readPrices, keepNowhere], o.kind.isSync = false) ∧
      World.plain.Tells [readPrices, keepNowhere] (priceCall (.str "tea") (.int 3)).method shop ∧
      ∃ bs w, World.services.bindAll (priceCall (.str "tea") (.int 3)) [.str "tea"]
          [readPrices, keepNowhere] World.plain = .ok bs w ∧
        bs.map (·.operation) = [readPrices, keepNowhere] ∧
        ∃ w' t, (priceCall (.str "tea") (.int 3)).logged.execute World.services.logged
            (ErrorHandler.logged .rethrow) [readPrices, keepNowhere] (World.plain, []) =
            .error (.nullKey keepNowhere.description) (w', t) ∧
          ∀ d ∈ t, d.Spares := by
  have hs : ∀ o ∈ [readPrices, keepNowhere], o.kind.isSync = false := by decide
  have htells : World.plain.Tells [readPrices, keepNowhere]
      (priceCall (.str "tea") (.int 3)).method shop :=
    ⟨by decide +kernel, fun o _ => World.knows_of_none rfl⟩
  obtain ⟨w', hgather⟩ := gatherNowhere_error
  obtain ⟨hfail, hcause, -, htold⟩ := execute_unusable World.services .rethrow
    (priceCall (.str "tea") (.int 3)) [readPrices, keepNowhere] hs (s := World.plain) rfl
  refine ⟨hs, htells, _, _, rfl, htold (World.services_tells htells), ?_⟩
  obtain hu | ⟨w, hw⟩ | ⟨c, hc⟩ | ⟨r, hr⟩ := hcause _ w' hgather
  · exact hfail _ hu
  · cases hw
  · cases hc
  · cases hr

end CachedCalls
