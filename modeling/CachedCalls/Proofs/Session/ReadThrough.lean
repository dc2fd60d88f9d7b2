import CachedCalls.Proofs.Session.Searching

set_option autoImplicit false

namespace CachedCalls

section Reads

variable {σ : Type} (sv : Services σ) (h : ErrorHandler σ)

def Call.fill (call : Call σ) : Search → Act σ Value
  | .hit v => pure v
  | .missed rs => do
    let v ← call.invoked
    rs.forM (Call.store sv h v)
    pure v

theorem runPhased_reads_only (call : Call σ) (bs : List Bound) :
    Call.runPhased sv h call bs [] [] = Call.search sv h bs >>= call.fill sv h := by
  have hgather : Call.gather sv h call bs [] [] = Call.search sv h bs >>= fun x => match x with
      | .hit v => pure (v, [])
      | .missed rs => call.invoked >>= fun v => pure (v, rs) := by
    unfold Call.gather
    rw [show Call.evictAll sv h true .unset [] = pure () from rfl, pure_bind]
    refine bind_congr fun x => ?_
    cases x with
    | hit v => rfl
    | missed rs =>
      refine bind_congr fun v => ?_
      change (pure (v, rs ++ []) : Act σ (Value × List Request)) = _
      rw [List.append_nil]
  unfold Call.runPhased
  rw [hgather, bind_assoc]
  refine bind_congr fun x => ?_
  cases x with
  | hit v => rfl
  | missed rs =>
    rw [bind_assoc]
    rfl

end Reads

variable {ε α β : Type} {ps : Nat → Prop} {os : List Operation} {m : Method} {t : TypeDecl}

/-- From a world in which the maps in `ps` are open, a run of `x` without an error leaves them open
    and keeps the bindings of `os`. -/
def Recalling (ps : Nat → Prop) (os : List Operation) (m : Method) (t : TypeDecl)
    (x : EStateM ε World α) : Prop :=
  ∀ w a w', w.Ready ps → x w = .ok a w' → w'.Ready ps ∧ w.Recalls os m t w'

namespace Recalling

theorem pure (a : α) : Recalling ps os m t (Pure.pure a : EStateM ε World α) := by
  intro w b w' hw hr
  obtain ⟨-, rfl⟩ := pure_ok.1 hr
  exact ⟨hw, .refl w⟩

theorem bind {x : EStateM ε World α} {f : α → EStateM ε World β} (hx : Recalling ps os m t x)
    (hf : ∀ a, Recalling ps os m t (f a)) : Recalling ps os m t (x >>= f) := by
  intro w b w' hw hr
  obtain ⟨a, w₁, hr₁, hr₂⟩ := bind_ok.1 hr
  obtain ⟨hw₁, hrec₁⟩ := hx w a w₁ hw hr₁
  obtain ⟨hw', hrec₂⟩ := hf a w₁ b w' hw₁ hr₂
  exact ⟨hw', hrec₁.trans hrec₂⟩

theorem of_keeps {x : EStateM ε World α} (hstill : Keeps World.Still x)
    (hrec : Keeps (World.Recalls os m t) x) : Recalling ps os m t x := by
  intro w a w' hw hr
  have hkept := hstill w
  have hkept' := hrec w
  rw [hr] at hkept hkept'
  exact ⟨hw.still hkept, hkept'⟩

theorem forM {f : β → Act World Unit} (bs : List β) (hf : ∀ b ∈ bs, Recalling ps os m t (f b)) :
    Recalling ps os m t (bs.forM f) := by
  induction bs with
  | nil => exact pure ()
  | cons b bs ih =>
    obtain ⟨hb, hbs⟩ := List.forall_mem_cons.1 hf
    exact bind hb fun _ => ih hbs

theorem putOne (h : ErrorHandler World) (k : Key) (v : Value) {c : CacheRef} (hc : ps c.place) :
    Recalling ps os m t (Call.putOne World.services h k v c) := by
  intro w a w' hw hr
  obtain ⟨b, w₁, hrun, hw₁, -, hrec⟩ :=
    guard_open h (.put c k v) () (Serves.put hc k v) (World.put_recalls c k v) hw
  cases hrun.symm.trans hr
  exact ⟨hw₁, hrec⟩

theorem store (h : ErrorHandler World) (v : Value) (q : Request)
    (hq : ∀ c ∈ q.bound.caches, ps c.place) :
    Recalling ps os m t (Call.store World.services h v q) := by
  refine bind (of_keeps (World.services_still.allows q.bound (.available v))
    (World.allows_recalls q.bound (.available v))) fun allowed => ?_
  cases allowed with
  | false => exact pure ()
  | true => exact forM q.bound.caches fun c hc => putOne h q.key v (hq c hc)

end Recalling

theorem Course.reads_ne_invoke {bs : List Bound} {ts : List Touch}
    (hts : Course Bound.reads bs ts) : ∀ a ∈ ts, a ≠ .invoke := by
  induction hts with
  | nil => exact fun _ ha => nomatch ha
  | skip _ ih => exact ih
  | take k _ ih =>
    intro a ha
    obtain ha | ha := List.mem_append.1 ha
    · obtain ⟨c, -, rfl⟩ := List.mem_map.1 ha
      exact fun hi => nomatch hi
    · exact ih a ha

theorem Searched.touch_ne_invoke {bs : List Bound} {r : Except CallError Search} {u : List Deed}
    (hu : Searched bs r u) : ∀ d ∈ u, d.touch ≠ .invoke := by
  obtain ⟨ts, hts, hsought⟩ := hu.deeds
  intro d hd
  exact hts.reads_ne_invoke d.touch (hsought.order.subset (List.mem_map_of_mem hd))

theorem fill_missed (h : ErrorHandler World) {call : Call World}
    (hcall : Keeps World.Still call.invoke) (hrec : Keeps (World.Recalls os m t) call.invoke)
    {rs : List Request} (hrs : ∀ q ∈ rs, ∀ c ∈ q.bound.caches, ps c.place) {w w' : World} {v : Value}
    {u u' : List Deed} (hw : w.Ready ps)
    (hrun : call.logged.fill World.services.logged h.logged (.missed rs) (w, u) = .ok v (w', u')) :
    w'.Ready ps ∧ w.Recalls os m t w' ∧ Calls u' ∧
      w'.store = w.store.set (fun p k => rs.any (·.covers v p k)) (some v) := by
  obtain ⟨u₁, hu₁, hcalls⟩ := called_bind call
    (fun v => Tracks.bind (forM_course _ (store_tracks World.services h v) rs)
      (fun _ _ _ => trivial) fun _ _ _ => Tracks.pure trivial) False w u
  obtain ⟨hplain, rfl⟩ := withLog_ok (hu₁.symm.trans hrun)
  obtain ⟨a, w₁, hinvoked, hrest⟩ := bind_ok.1 hplain
  obtain ⟨_, w₂, hstores, hlast⟩ := bind_ok.1 hrest
  obtain ⟨rfl, rfl⟩ := pure_ok.1 hlast
  obtain ⟨hw₁, hrec₁⟩ := Recalling.of_keeps (hcall.adapt _) (hrec.adapt _) w a w₁ hw hinvoked
  obtain ⟨hw₂, hrec₂⟩ := Recalling.forM rs (fun q hq => Recalling.store h a q (hrs q hq)) w₁ _ w₂
    hw₁ hstores
  refine ⟨hw₂, hrec₁.trans hrec₂, ?_, ?_⟩
  · obtain ⟨d, hd, hi⟩ := (hcalls a (ended_ok hplain)).resolve_right id
    exact ⟨d, List.mem_append_right u hd, hi⟩
  · have hinvoke := (invoked_does hcall w a w₁ hw hinvoked).2
    rw [← hinvoke]
    exact (Does.forM rs (fun q hq => store_does h a q (hrs q hq)) w₁ _ w₂ hw₁ hstores).2

section Twice

variable (h : ErrorHandler World) {bs : List Bound} {w w' : World} {v : Value} {u : List Deed}
  (hbs : ∀ b ∈ bs, ∀ c ∈ b.caches, ps c.place) (hw : w.Ready ps)

include hbs hw

variable (os m t) in
theorem search_logged : ∃ w' u,
    Call.search World.services h bs w = resultOf (searching w.store bs) w' ∧
      Call.search World.services.logged h.logged bs (w, []) =
        resultOf (searching w.store bs) (w', u) ∧
      (∀ d ∈ u, d.touch ≠ .invoke) ∧ w'.Ready ps ∧ w'.store = w.store ∧ w.Recalls os m t w' := by
  obtain ⟨w', hrun, hw', hstore, hrec⟩ := search_settles h bs hbs w hw
  obtain ⟨u, hlogged, hsearched⟩ := search_tracks World.services h bs w []
  rw [hrun, withLog_resultOf] at hlogged
  exact ⟨w', u, hrun, hlogged, hsearched.touch_ne_invoke, hw', hstore, hrec⟩

theorem reads_hit (call : Call World) (hS : searching w.store bs = .ok (.hit v)) :
    ∃ w' u, Call.runPhased World.services.logged h.logged call.logged bs [] [] (w, []) =
        .ok v (w', u) ∧
      (∀ d ∈ u, d.touch ≠ .invoke) ∧ w'.store = w.store := by
  obtain ⟨w', u, -, hlogged, hno, -, hstore, -⟩ :=
    search_logged [] call.method call.target.type h hbs hw
  rw [hS] at hlogged
  rw [runPhased_reads_only]
  exact ⟨w', u, bind_of_ok hlogged, hno, hstore⟩

theorem reads_cases {call : Call World} (hcall : Keeps World.Still call.invoke)
    (hrec : Keeps (World.Recalls os m t) call.invoke)
    (hrun : Call.runPhased World.services.logged h.logged call.logged bs [] [] (w, []) =
      .ok v (w', u)) :
    w'.Ready ps ∧ w.Recalls os m t w' ∧
      (searching w.store bs = .ok (.hit v) ∧ w'.store = w.store ∨
        ∃ rs, searching w.store bs = .ok (.missed rs) ∧ Asks bs .unset rs ∧ Calls u ∧
          w'.store = w.store.set (fun p k => rs.any (·.covers v p k)) (some v)) := by
  obtain ⟨w₁, u₁, hsearch, hlogged, -, hw₁, hS₁, hrec₁⟩ :=
    search_logged os m t h hbs hw
  rw [runPhased_reads_only] at hrun
  cases hS : searching w.store bs with
  | error e =>
    rw [hS] at hlogged
    cases (bind_of_error hlogged).symm.trans hrun
  | ok x =>
    rw [hS] at hsearch hlogged
    have hfill := (bind_of_ok hlogged).symm.trans hrun
    cases x with
    | hit a =>
      cases hfill
      exact ⟨hw₁, hrec₁, .inl ⟨rfl, hS₁⟩⟩
    | missed rs =>
      have hasks : Asks bs .unset rs := (search_does h bs hbs w _ w₁ hw hsearch).2.2.2
      obtain ⟨hw', hrec', hcalls, hS'⟩ := fill_missed h hcall hrec
        (fun q hq => hbs _ (hasks.mem q hq)) hw₁ hfill
      rw [hS₁] at hS'
      exact ⟨hw', hrec₁.trans hrec', .inr ⟨rs, rfl, hasks, hcalls, hS'⟩⟩

theorem reads_kept {call : Call World} (hcall : Keeps World.Still call.invoke)
    (hrec : Keeps (World.Recalls os m t) call.invoke)
    (hrun : Call.runPhased World.services.logged h.logged call.logged bs [] [] (w, []) =
      .ok v (w', u))
    (hkept : (∀ d ∈ u, d.touch ≠ .invoke) ∨
      ∃ b ∈ bs, b.holds .unset = true ∧ b.permits v = true) :
    w'.Ready ps ∧ w.Recalls os m t w' ∧ searching w'.store bs = .ok (.hit v) := by
  obtain ⟨hw', hrec', ⟨hhit, hS⟩ | ⟨rs, hmissed, hasks, hcalls, hS⟩⟩ :=
    reads_cases h hbs hw hcall hrec hrun
  · refine ⟨hw', hrec', ?_⟩
    rw [hS]
    exact hhit
  · refine ⟨hw', hrec', ?_⟩
    obtain hno | ⟨b, hb, hholds, hpermits⟩ := hkept
    · obtain ⟨d, hd, hi⟩ := hcalls
      exact absurd hi (hno d hd)
    · have hmem : b ∈ rs.map (·.bound) := by
        rw [hasks.bounds]
        exact List.mem_filter.2 ⟨hb, hholds⟩
      obtain ⟨q, hq, rfl⟩ := List.mem_map.1 hmem
      obtain ⟨c, hc⟩ := List.exists_mem_of_ne_nil _ q.bound.caches_ne
      have hcovers : q.covers v c.place q.key = true := by
        have hreaches : q.bound.reaches c.place = true :=
          List.any_eq_true.2 ⟨c, hc, decide_eq_true rfl⟩
        simp [Request.covers, hpermits, hreaches, exactly]
      rw [hS]
      exact searching_set hmissed hq ⟨c, hc, List.any_eq_true.2 ⟨q, hq, hcovers⟩⟩ v

end Twice

theorem bindAll_invoke {σ : Type} (sv : Services σ) {call : Call σ}
    (invoke : EStateM String σ Value) (args : List Value) (os : List Operation) :
    sv.bindAll { call with invoke := invoke } args os = sv.bindAll call args os := by
  induction os with
  | nil => rfl
  | cons o os ih =>
    simp only [Services.bindAll, ih]
    rfl

/-- Let the operations `os` be plain reads that `w` tells apart, bound as `bs` to open maps, and let
    the method leave the caches and the bindings alone. If a call gave `v`, and either found it or
    had a read that was to store it, the next call gives `v` without calling its method, whatever
    that is, and leaves the store as it is. -/
theorem execute_again (h : ErrorHandler World) (call : Call World) (os : List Operation)
    (hos : ∀ o ∈ os, o.IsPlainRead) {bs : List Bound} {w w₁ w' : World}
    (hw : w.Tells os call.method call.target.type)
    (hb : World.services.bindAll call (spread call.method call.args) os w = .ok bs w₁)
    (hopen : ∀ b ∈ bs, ∀ c ∈ b.caches, w₁.Open c.place) (hfaults : w.faults = [])
    (hcall : Keeps World.Still call.invoke)
    (hrec : Keeps (World.Recalls os call.method call.target.type) call.invoke) {v : Value}
    {u : List Deed} (hrun : call.logged.execute World.services.logged h.logged os (w, []) =
      .ok v (w', u))
    (hkept : (∀ d ∈ u, d.touch ≠ .invoke) ∨ ∃ x ∈ os.zip bs,
      (x.2.as x.1).holds .unset = true ∧ (x.2.as x.1).permits v = true)
    (invoke : EStateM String World Value) :
    ∃ w'' u', Call.execute World.services.logged h.logged
        (Call.logged { call with invoke := invoke }) os (w', []) = .ok v (w'', u') ∧
      (∀ d ∈ u', d.touch ≠ .invoke) ∧ w''.store = w'.store := by
  obtain ⟨-, hbinds, -⟩ := World.bindAll_ok hw hb
  have hstill := World.bindAll_still hb
  have hready := World.Ready.placed (hstill.faults.trans hfaults) hopen
  have hreads : ∀ b ∈ bs, b.operation.IsPlainRead := by
    intro b hb
    have ho := List.mem_map_of_mem (f := (·.operation)) hb
    rw [World.map_operation hbinds] at ho
    exact hos _ ho
  -- What the first call gave lies in the store.
  rw [execute_reads _ _ hos hreads (bindAll_logged World.services hb)] at hrun
  have hkept : (∀ d ∈ u, d.touch ≠ .invoke) ∨
      ∃ b ∈ bs, b.holds .unset = true ∧ b.permits v = true := by
    refine hkept.imp_right ?_
    rintro ⟨⟨o, b⟩, hx, hholds, hpermits⟩
    have hop : b.operation = o := (List.forall₂_zip hbinds hx).operation
    have has : b.as o = b := by
      rw [← hop]
      rfl
    rw [has] at hholds hpermits
    exact ⟨b, (List.of_mem_zip hx).2, hholds, hpermits⟩
  obtain ⟨hw', hrec', hfound⟩ := reads_kept h placed_of_mem hready hcall hrec hrun hkept
  -- The operations of the second call are bound to the same caches.
  obtain ⟨w₂, hagain⟩ := World.bindAll_again hw hb hrec'
  have hstill₂ := World.bindAll_still hagain
  rw [← hstill₂.store] at hfound ⊢
  rw [← bindAll_invoke World.services invoke] at hagain
  rw [execute_reads _ _ hos hreads (bindAll_logged World.services hagain)]
  exact reads_hit h placed_of_mem (hw'.still hstill₂) { call with invoke := invoke } hfound

theorem execute_again_price :
    World.plain.Tells [readPrices] (priceCall (.str "tea") (.int 3)).method shop ∧
      ∃ w u, (priceCall (.str "tea") (.int 3)).logged.execute World.services.logged
          (ErrorHandler.logged .rethrow) [readPrices] (World.plain, []) = .ok (.int 3) (w, u) ∧
        ∃ w' u', (priceCall (.str "tea") (.int 4)).logged.execute World.services.logged
            (ErrorHandler.logged .rethrow) [readPrices] (w, []) = .ok (.int 3) (w', u') ∧
          (∀ d ∈ u', d.touch ≠ .invoke) ∧ w'.store = w.store := by
  have htells : World.plain.Tells [readPrices] (priceCall (.str "tea") (.int 3)).method shop := by
    refine ⟨?_, fun o _ => World.knows_of_none rfl⟩
    intro o ho p hp _
    rw [List.mem_singleton.1 ho, List.mem_singleton.1 hp]
  have hreads : ∀ o ∈ [readPrices], o.IsPlainRead := by
    intro o ho
    rw [List.mem_singleton.1 ho]
    exact ⟨none, rfl⟩
  refine ⟨htells, _, _, rfl, ?_⟩
  refine execute_again .rethrow (priceCall (.str "tea") (.int 3)) [readPrices] hreads htells rfl ?_
    rfl (fun w => .of_heap rfl rfl) (fun w => .refl w) rfl
    (.inr ⟨_, List.mem_cons_self, rfl, rfl⟩) (fun w => .ok (.int 4) w)
  refine List.forall_mem_cons.2 ⟨fun c hc => ?_, fun _ hb => nomatch hb⟩
  exact World.Open.stocked (n := "prices") rfl rfl hc

def quotedReads : List Operation := [quotedVeto false, vetoedRead false]

def quotedPrice (price : Value) (w : World) : EStateM.Result CallError (Logged World) Value :=
  (priceCall (.str "tea") price).logged.execute World.services.logged (ErrorHandler.logged .rethrow)
    quotedReads (w, [])

def World.quoted : World := (stateOf (quotedPrice (.int 3) World.plain)).1

/-- The second of `quotedReads` is bound with the metadata of the first. It permits the price, yet
    the price is not stored, and the second call calls the method again. -/
theorem execute_again_quoted :
    (∀ o ∈ quotedReads, o.IsPlainRead) ∧
      (∃ bs w₁, World.services.bindAll (priceCall (.str "tea") (.int 3)) [.str "tea"] quotedReads
          World.plain = .ok bs w₁ ∧
        (∀ b ∈ bs, ∀ c ∈ b.caches, w₁.Open c.place) ∧
        ∃ x ∈ quotedReads.zip bs,
          (x.2.as x.1).holds .unset = true ∧ (x.2.as x.1).permits (.int 3) = true) ∧
      (ended (quotedPrice (.int 3) World.plain)).toOption = some (.int 3) ∧
      (ended (quotedPrice (.int 4) World.quoted)).toOption = some (.int 4) ∧
      invocations (logOf (quotedPrice (.int 4) World.quoted)) = 1 := by
  have hreads : ∀ o ∈ quotedReads, o.IsPlainRead :=
    List.forall_mem_cons.2 ⟨⟨_, rfl⟩, List.forall_mem_cons.2 ⟨⟨_, rfl⟩, fun _ ho => nomatch ho⟩⟩
  refine ⟨hreads, ?_, by decide +kernel, by decide +kernel, by decide +kernel⟩
  have hbound : (match World.services.bindAll (priceCall (.str "tea") (.int 3)) [.str "tea"]
      quotedReads World.plain with
      | .ok bs w₁ => decide ((∀ b ∈ bs, ∀ c ∈ b.caches, w₁.Open c.place) ∧
          ∃ x ∈ quotedReads.zip bs,
            (x.2.as x.1).holds .unset = true ∧ (x.2.as x.1).permits (.int 3) = true)
      | .error _ _ => false) = true := by decide +kernel
  split at hbound
  · next bs w₁ hb => exact ⟨bs, w₁, hb, of_decide_eq_true hbound⟩
  · cases hbound

end CachedCalls
