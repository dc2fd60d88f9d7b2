import CachedCalls.Proofs.Session.Binding

set_option autoImplicit false

namespace CachedCalls

namespace Bound

theorem isRead_of_others {b : Bound} (hp : b.isPut = false) (he : b.eviction? = none) :
    b.isRead = true := by
  unfold isPut at hp
  unfold eviction? at he
  unfold isRead
  cases hk : b.operation.kind <;> simp_all

theorem isRead_of_isSync {b : Bound} (hb : b.operation.kind.isSync = true) : b.isRead = true := by
  unfold isRead
  cases hk : b.operation.kind <;> simp_all [OperationKind.isSync]

end Bound

theorem Plan.soleCache_cases (b : Bound) :
    (∃ c, b.caches = [c] ∧ b.operation.kind.veto = none ∧ soleCache b = .ok c) ∨
      (1 < b.caches.length ∨ b.operation.kind.veto.isSome = true) ∧ ∃ f, soleCache b = .error f := by
  unfold soleCache
  split
  · next hnil => exact absurd hnil b.caches_ne
  · next c hc =>
    cases hv : b.operation.kind.veto with
    | none => exact .inl ⟨c, hc, rfl, rfl⟩
    | some u => exact .inr ⟨.inr rfl, _, rfl⟩
  · next hmany =>
    refine .inr ⟨.inl ?_, _, rfl⟩
    rw [hmany]
    simp

theorem Plan.ofBounds_sync (method : String) {bs : List Bound} {b : Bound} (hb : b ∈ bs)
    (hsync : b.operation.kind.isSync = true) :
    (∃ c, bs = [b] ∧ b.caches = [c] ∧ b.operation.kind = .cacheable none true ∧
        ofBounds method bs = .ok (.single b c)) ∨
      (1 < bs.length ∨ 1 < b.caches.length ∨ b.operation.kind.veto.isSome = true) ∧
        ∃ f, ofBounds method bs = .error f := by
  have hread : b ∈ bs.filter (·.isRead) := List.mem_filter.2 ⟨hb, Bound.isRead_of_isSync hsync⟩
  have hany : (bs.filter (·.isRead)).any (·.operation.kind.isSync) = true :=
    List.any_eq_true.2 ⟨b, hread, hsync⟩
  cases bs with
  | nil => cases hb
  | cons a as =>
    cases as with
    | cons a' as =>
      -- With other operations there is no plan.
      refine .inr ⟨.inl (by simp), ?_⟩
      unfold ofBounds
      simp only [hany, if_true]
      split
      · next hothers =>
        have hothers := Bool.and_eq_true_iff.1 hothers
        have hputs := List.isEmpty_iff.1 hothers.1
        have hevictions := List.isEmpty_iff.1 hothers.2
        have hall : (a :: a' :: as).filter (·.isRead) = a :: a' :: as := by
          refine List.filter_eq_self.2 fun p hp => Bound.isRead_of_others ?_ ?_
          · exact eq_false_of_ne_true (List.filter_eq_nil_iff.1 hputs p hp)
          · exact List.filterMap_eq_nil_iff.1 hevictions p hp
        rw [hall]
        exact ⟨_, rfl⟩
      · exact ⟨_, rfl⟩
    | nil =>
      cases List.mem_singleton.1 hb
      obtain ⟨u, hk⟩ : ∃ u, b.operation.kind = .cacheable u true := by
        cases hk : b.operation.kind with
        | cacheable u s =>
          rw [hk] at hsync
          cases hsync
          exact ⟨u, rfl⟩
        | _ => simp [hk, OperationKind.isSync] at hsync
      have hof : ofBounds method [b] = (soleCache b).map (single b) := by
        simp [ofBounds, Bound.isRead, Bound.isPut, Bound.eviction?, hk, OperationKind.isSync]
      obtain ⟨c, hc, hveto, hsole⟩ | ⟨hmany, f, hsole⟩ := soleCache_cases b
      · refine .inl ⟨c, rfl, hc, ?_, ?_⟩
        · rw [hk] at hveto ⊢
          cases hveto
          rfl
        · rw [hof, hsole]
          rfl
      · refine .inr ⟨.inr hmany, f, ?_⟩
        rw [hof, hsole]
        rfl

theorem Plan.ofBounds_single {method : String} {bs : List Bound} {b : Bound} {c : CacheRef}
    (h : ofBounds method bs = .ok (.single b c)) : bs = [b] := by
  by_cases hs : ∃ p ∈ bs, p.operation.kind.isSync = true
  · obtain ⟨p, hp, hsync⟩ := hs
    obtain ⟨c', hbs, -, -, hof⟩ | ⟨-, f, hfail⟩ := ofBounds_sync method hp hsync
    · cases hof.symm.trans h
      exact hbs
    · cases hfail.symm.trans h
  · have hnone : ∀ p ∈ bs, p.operation.kind.isSync = false := fun p hp =>
      eq_false_of_ne_true fun hsync => hs ⟨p, hp, hsync⟩
    cases (ofBounds_phased hnone).symm.trans h

section Plan

variable {σ : Type} (sv : Services σ) (call : Call σ) {os : List Operation} {s s' : σ}

theorem execute_unplanned (h : ErrorHandler σ) {e : CallError}
    (hp : Call.plan sv call os s = .error e s') :
    call.logged.execute sv.logged h.logged os (s, []) = .error e (s', []) := by
  obtain ⟨u, hu, rfl⟩ := plan_silent sv call os s []
  rw [hp] at hu
  rw [execute_planned]
  exact bind_of_error hu

theorem plan_bound {bs : List Bound}
    (hbs : sv.bindAll call (spread call.method call.args) os s = .ok bs s') :
    Call.plan sv call os s =
      match Plan.ofBounds call.method.text bs with
      | .ok p => .ok p s'
      | .error f => .error (.configuration f) s' := by
  have hp : Call.plan sv call os s = _ := bind_of_ok hbs
  rw [hp]
  cases Plan.ofBounds call.method.text bs <;> rfl

theorem plan_ok {p : Plan} (hp : Call.plan sv call os s = .ok p s') :
    ∃ bs, sv.bindAll call (spread call.method call.args) os s = .ok bs s' ∧
      Plan.ofBounds call.method.text bs = .ok p := by
  obtain ⟨bs, s₁, hbs, -⟩ := bind_ok.1 hp
  rw [plan_bound sv call hbs] at hp
  cases hof : Plan.ofBounds call.method.text bs with
  | error f =>
    rw [hof] at hp
    cases hp
  | ok q =>
    rw [hof] at hp
    cases hp
    exact ⟨bs, hbs, hof⟩

theorem plan_sync {o : Operation} (ho : o ∈ os) (hsync : o.kind.isSync = true) {p : Plan}
    (hp : Call.plan sv call os s = .ok p s') :
    os = [o] ∧ ∃ b c, p = .single b c ∧ b.caches = [c] ∧ b.operation.kind = .cacheable none true ∧
      b.operation.description = o.description ∧
      sv.bindAll call (spread call.method call.args) os s = .ok [b] s' := by
  obtain ⟨bs, hbs, hof⟩ := plan_ok sv call hp
  have hdesc := bindAll_description sv hbs
  obtain ⟨b, hb, hbo⟩ : ∃ b ∈ bs, b.operation.description = o.description := by
    have hmem := List.mem_map_of_mem (f := (·.description)) ho
    rw [← hdesc] at hmem
    exact List.mem_map.1 hmem
  have hbsync : b.operation.kind.isSync = true :=
    (Operation.isSync_of_description hbo).trans hsync
  obtain ⟨c, rfl, hc, hk, hsingle⟩ | ⟨-, f, hfail⟩ := Plan.ofBounds_sync call.method.text hb hbsync
  · cases hsingle.symm.trans hof
    have hone : os.length = 1 := by
      have hlength := congrArg List.length hdesc
      rw [List.length_map, List.length_map] at hlength
      exact hlength.symm
    obtain ⟨q, rfl⟩ := List.length_eq_one_iff.1 hone
    cases List.mem_singleton.1 ho
    exact ⟨rfl, b, c, rfl, hc, hk, hbo, hbs⟩
  · cases hfail.symm.trans hof

end Plan

namespace World

/-- A component or a cache that `o` names is not there, or `o` names no cache. -/
inductive Mistake (w : World) (o : Operation) : Prop where
  | generator {n : String} (hn : o.keyGenerator = some n)
      (hno : w.wiring.components.generators.lookup n = none) : Mistake w o
  | resolver {n : String} (hn : o.resolver = some n)
      (hno : w.wiring.components.resolvers.lookup n = none) : Mistake w o
  | manager {n : String} (hr : o.resolver = none) (hn : o.manager = some n)
      (hno : w.wiring.components.managers.lookup n = none) : Mistake w o
  | cache {r : Resolver} {n : String} (hr : w.wiring.resolverFor o = .ok r)
      (hn : n ∈ r.fixed.getD o.cacheNames) (hno : w.offers r.manager n = false) : Mistake w o
  | nameless {r : Resolver} (hr : w.wiring.resolverFor o = .ok r)
      (hnil : r.fixed.getD o.cacheNames = []) : Mistake w o

/-- A synchronized read among other operations, or of several caches, or with a veto. -/
inductive Misuse (w : World) : List Operation → Prop where
  | company {os : List Operation} {o : Operation} (ho : o ∈ os) (hsync : o.kind.isSync = true)
      (hos : 1 < os.length) : Misuse w os
  | caches {o : Operation} {r : Resolver} (hsync : o.kind.isSync = true)
      (hr : w.wiring.resolverFor o = .ok r) (hmany : 1 < (r.fixed.getD o.cacheNames).length) :
      Misuse w [o]
  | veto {o : Operation} (hsync : o.kind.isSync = true) (hv : o.kind.veto.isSome = true) :
      Misuse w [o]

theorem named_error {α : Type} {kind : ComponentKind} {n : String} {as : List (String × α)} :
    (∃ f, Components.named kind n as = .error f) ↔ as.lookup n = none := by
  unfold Components.named
  cases as.lookup n <;> simp

theorem generatorFor_error {w : Wiring} {o : Operation} :
    (∃ f, w.generatorFor o = .error f) ↔
      ∃ n, o.keyGenerator = some n ∧ w.components.generators.lookup n = none := by
  unfold Wiring.generatorFor
  cases o.keyGenerator with
  | none => simp
  | some n =>
    have hnamed : (∃ f, w.components.generator n = .error f) ↔ _ := named_error
    simp only [hnamed, Option.some.injEq, exists_eq_left']

theorem resolverFor_error {w : Wiring} {o : Operation} :
    (∃ f, w.resolverFor o = .error f) ↔
      (∃ n, o.resolver = some n ∧ w.components.resolvers.lookup n = none) ∨
        o.resolver = none ∧ ∃ n, o.manager = some n ∧ w.components.managers.lookup n = none := by
  unfold Wiring.resolverFor
  cases o.resolver with
  | some n =>
    have hnamed : (∃ f, w.components.resolver n = .error f) ↔ _ := named_error
    simp only [hnamed, Option.some.injEq, exists_eq_left', reduceCtorEq, false_and, or_false]
  | none =>
    cases o.manager with
    | none => simp
    | some n =>
      have hnamed : (∃ f, w.components.manager n = .error f) ↔ _ := named_error
      have hmap : (∃ f, (w.components.manager n).map (fun m => ({ manager := m } : Resolver)) =
          .error f) ↔ ∃ f, w.components.manager n = .error f := by
        cases w.components.manager n <;> simp [Except.map]
      simp only [hmap, hnamed, Option.some.injEq, exists_eq_left', reduceCtorEq, false_and,
        exists_const, false_or, true_and]

theorem metadata_error {w : Wiring} {o : Operation} {m : Method} {t : TypeDecl} :
    (∃ f, w.metadata o m t = .error f) ↔
      (∃ f, w.generatorFor o = .error f) ∨ ∃ f, w.resolverFor o = .error f := by
  unfold Wiring.metadata
  cases w.generatorFor o with
  | error f => simp [bind, Except.bind]
  | ok g => cases w.resolverFor o <;> simp [bind, Except.bind, pure, Except.pure]

theorem metadata_resolver {w : Wiring} {o : Operation} {m : Method} {t : TypeDecl} {d : Metadata}
    (h : w.metadata o m t = .ok d) : w.resolverFor o = .ok d.resolver := by
  unfold Wiring.metadata at h
  cases hg : w.generatorFor o with
  | error f =>
    rw [hg] at h
    cases h
  | ok g =>
    cases hr : w.resolverFor o with
    | error f =>
      rw [hg, hr] at h
      cases h
    | ok r =>
      rw [hg, hr] at h
      cases h
      rfl

theorem names_of_metadata {w : Wiring} {o : Operation} {m : Method} {t : TypeDecl} {d : Metadata}
    (h : w.metadata o m t = .ok d) : d.names = d.resolver.fixed.getD o.cacheNames := by
  rw [Metadata.names, Wiring.metadata_operation h]

theorem faulty_iff {w : World} {o : Operation} {m : Method} {t : TypeDecl} :
    w.Faulty o m t ↔ w.Mistake o := by
  constructor
  · intro hf
    cases hf with
    | wiring hm =>
      obtain hg | hr := metadata_error.1 ⟨_, hm⟩
      · obtain ⟨n, hn, hno⟩ := generatorFor_error.1 hg
        exact .generator hn hno
      · obtain ⟨n, hn, hno⟩ | ⟨hr, n, hn, hno⟩ := resolverFor_error.1 hr
        · exact .resolver hn hno
        · exact .manager hr hn hno
    | nameless hm hd => exact .nameless (metadata_resolver hm) ((names_of_metadata hm).symm.trans hd)
    | unknown hm hn hno => exact .cache (metadata_resolver hm) (names_of_metadata hm ▸ hn) hno
  · have hwiring (he : ∃ f, w.wiring.metadata o m t = .error f) : w.Faulty o m t := by
      obtain ⟨f, hf⟩ := he
      exact .wiring hf
    intro hmis
    cases hmis with
    | generator hn hno => exact hwiring (metadata_error.2 (.inl (generatorFor_error.2 ⟨_, hn, hno⟩)))
    | resolver hn hno =>
      exact hwiring (metadata_error.2 (.inr (resolverFor_error.2 (.inl ⟨_, hn, hno⟩))))
    | manager hr hn hno =>
      exact hwiring (metadata_error.2 (.inr (resolverFor_error.2 (.inr ⟨hr, _, hn, hno⟩))))
    | cache hr hn hno =>
      cases hm : w.wiring.metadata o m t with
      | error f => exact .wiring hm
      | ok d =>
        cases (metadata_resolver hm).symm.trans hr
        exact .unknown hm ((names_of_metadata hm).symm ▸ hn) hno
    | nameless hr hnil =>
      cases hm : w.wiring.metadata o m t with
      | error f => exact .wiring hm
      | ok d =>
        cases (metadata_resolver hm).symm.trans hr
        exact .nameless hm ((names_of_metadata hm).trans hnil)

theorem exists_of_forall₂ {α β : Type} {R : α → β → Prop} {as : List α} {bs : List β}
    (h : List.Forall₂ R as bs) {a : α} (ha : a ∈ as) : ∃ b ∈ bs, R a b := by
  induction h with
  | nil => cases ha
  | @cons a' b as bs hb _ ih =>
    obtain rfl | ha := List.mem_cons.1 ha
    · exact ⟨b, List.mem_cons_self, hb⟩
    · obtain ⟨b', hb', hrel⟩ := ih ha
      exact ⟨b', List.mem_cons_of_mem b hb', hrel⟩

theorem misuse_iff {w w₁ : World} {call : Call World} {args : List Value} {os : List Operation}
    {bs : List Bound} (hrec : Recalls os call.method call.target.type w w₁)
    (hbs : List.Forall₂ (w₁.Binds call args) os bs) (method : String) :
    (∃ f, Plan.ofBounds method bs = .error f) ↔ w.Misuse os := by
  have hlength := hbs.length_eq
  by_cases hs : ∃ o ∈ os, o.kind.isSync = true
  · obtain ⟨o, ho, hsync⟩ := hs
    obtain ⟨b, hb, hbind⟩ := exists_of_forall₂ hbs ho
    have hop : b.operation = o := hbind.operation
    have hmeta : w.wiring.metadata o call.method call.target.type = .ok b.metadata :=
      (hrec.wiring o ho).symm.trans hbind.metadata
    have hcaches : b.caches.length = (b.metadata.resolver.fixed.getD o.cacheNames).length := by
      rw [hbind.length_caches, names_of_metadata hmeta]
    have hone (h : ¬ 1 < os.length) : os = [o] := by
      have hpos := List.length_pos_of_mem ho
      obtain ⟨q, rfl⟩ := List.length_eq_one_iff.1 (Nat.le_antisymm (Nat.le_of_not_lt h) hpos)
      cases List.mem_singleton.1 ho
      rfl
    obtain ⟨c, hsole, hc, hk, hof⟩ | ⟨hwhy, hfail⟩ :=
      Plan.ofBounds_sync method hb (hop.symm ▸ hsync)
    · have hos : os = [o] := hone (by simp [hlength, hsole])
      subst hos
      refine ⟨fun hf => ?_, fun hmis => ?_⟩
      · obtain ⟨f, hf⟩ := hf
        cases hof.symm.trans hf
      · cases hmis with
        | company _ _ hos => exact absurd hos (by simp)
        | caches _ hr hmany =>
          cases (metadata_resolver hmeta).symm.trans hr
          rw [← hcaches, hc] at hmany
          exact absurd hmany (by simp)
        | veto _ hv =>
          rw [← hop, hk] at hv
          cases hv
    · refine ⟨fun _ => ?_, fun _ => hfail⟩
      by_cases hmany : 1 < os.length
      · exact .company ho hsync hmany
      · obtain hbs' | hcs | hv := hwhy
        · exact absurd (hlength ▸ hbs') hmany
        · rw [hone hmany]
          exact .caches hsync (metadata_resolver hmeta) (hcaches ▸ hcs)
        · rw [hone hmany]
          exact .veto hsync (hop ▸ hv)
  · have hnone : ∀ b ∈ bs, b.operation.kind.isSync = false := by
      intro b hb
      have ho := List.mem_map_of_mem (f := (·.operation)) hb
      rw [map_operation hbs] at ho
      exact eq_false_of_ne_true fun hsync => hs ⟨_, ho, hsync⟩
    refine ⟨fun hf => ?_, fun hmis => ?_⟩
    · obtain ⟨f, hf⟩ := hf
      cases (ofBounds_phased hnone).symm.trans hf
    · cases hmis with
      | company ho hsync _ => exact absurd ⟨_, ho, hsync⟩ hs
      | caches hsync _ _ => exact absurd ⟨_, List.mem_singleton_self _, hsync⟩ hs
      | veto hsync _ => exact absurd ⟨_, List.mem_singleton_self _, hsync⟩ hs

end World

/-- If `os` cannot be planned, the call ends with a configuration error and an empty log. If `os` is
    planned and has a synchronized read, this is all of `os`, and what is planned has its
    description, one cache and no veto. If `w` tells `os` apart, planning fails exactly if there is
    a `Mistake` in one of `os` or a `Misuse` of `os`, and a single operation that is planned is the
    one of `os`. -/
theorem execute_misconfigured (h : ErrorHandler World) (call : Call World) (os : List Operation)
    (w : World) :
    (∀ e w', Call.plan World.services call os w = .error e w' → ∃ f, e = .configuration f ∧
      call.logged.execute World.services.logged h.logged os (w, []) =
        .error (.configuration f) (w', [])) ∧
    (∀ p w' o, Call.plan World.services call os w = .ok p w' → o ∈ os → o.kind.isSync = true →
      os = [o] ∧ ∃ b c, p = .single b c ∧ b.caches = [c] ∧
        b.operation.kind = .cacheable none true ∧ b.operation.description = o.description) ∧
    (w.Tells os call.method call.target.type →
      ((∃ e w', Call.plan World.services call os w = .error e w') ↔
        (∃ o ∈ os, w.Mistake o) ∨ w.Misuse os) ∧
      ∀ b c w', Call.plan World.services call os w = .ok (.single b c) w' → os = [b.operation]) := by
  refine ⟨?_, ?_, fun hw => ?_⟩
  · intro e w' hp
    obtain ⟨f, rfl⟩ := plan_raises World.services call os w e w' hp
    exact ⟨f, rfl, execute_unplanned World.services call h hp⟩
  · intro p w' o hp ho hsync
    obtain ⟨hos, b, c, hp, hc, hk, hdesc, -⟩ := plan_sync World.services call ho hsync hp
    exact ⟨hos, b, c, hp, hc, hk, hdesc⟩
  · obtain ⟨o, e, w₁, ho, hf, hfail, -⟩ | ⟨bs, w₁, hall, hok, hbs, hrec⟩ :=
      World.bindAll_cases (spread call.method call.args) (fun o ho => ho) hw
    · have hp : Call.plan World.services call os w = .error e w₁ := bind_of_error hfail
      refine ⟨⟨fun _ => .inl ⟨o, ho, World.faulty_iff.1 hf⟩, fun _ => ⟨e, w₁, hp⟩⟩, ?_⟩
      intro b c w' hp'
      cases hp.symm.trans hp'
    · have hmis := World.misuse_iff hrec hbs call.method.text
      have hno : ¬ ∃ o ∈ os, w.Mistake o := by
        intro ⟨o, ho, hmistake⟩
        exact hall o ho (World.faulty_iff.2 hmistake)
      rw [or_iff_right hno, ← hmis]
      refine ⟨?_, fun b c w' hp => ?_⟩
      · rw [plan_bound World.services call hok]
        cases Plan.ofBounds call.method.text bs <;> simp
      · obtain ⟨bs', hok', hof⟩ := plan_ok World.services call hp
        cases hok.symm.trans hok'
        rw [Plan.ofBounds_single hof] at hbs
        cases hbs with
        | @cons o _ os _ hb htail =>
          cases htail
          rw [hb.operation]

theorem execute_misconfigured_vetoed :
    World.plain.Tells [vetoedRead true] (priceCall (.str "tea") (.int 3)).method shop ∧
      World.plain.Misuse [vetoedRead true] ∧
      ∃ f w, (priceCall (.str "tea") (.int 3)).logged.execute World.services.logged
        (ErrorHandler.logged .rethrow) [vetoedRead true] (World.plain, []) =
          .error (.configuration f) (w, []) := by
  have htells : World.plain.Tells [vetoedRead true] (priceCall (.str "tea") (.int 3)).method shop := by
    refine ⟨?_, fun o _ => World.knows_of_none rfl⟩
    intro o ho p hp _
    rw [List.mem_singleton.1 ho, List.mem_singleton.1 hp]
  have hmis : World.plain.Misuse [vetoedRead true] := .veto rfl rfl
  obtain ⟨hfail, -, hplan⟩ := execute_misconfigured .rethrow (priceCall (.str "tea") (.int 3))
    [vetoedRead true] World.plain
  obtain ⟨e, w, hp⟩ := (hplan htells).1.2 (.inr hmis)
  obtain ⟨f, -, hrun⟩ := hfail e w hp
  exact ⟨htells, hmis, f, w, hrun⟩

/-- The world after a call with `quotedVeto true`, whose metadata is memoized under the description
    of `vetoedRead true`. -/
def World.quoting : World :=
  stateOf ((priceCall (.str "tea") (.int 3)).execute World.services .rethrow [quotedVeto true]
    World.plain)

/-- In `World.quoting`, the read `vetoedRead true`, which is synchronized and has a veto, is
    planned, and the method is called. -/
theorem execute_misconfigured_quoted :
    (vetoedRead true).kind.isSync = true ∧ (vetoedRead true).kind.veto.isSome = true ∧
      (∃ b c w, Call.plan World.services (priceCall (.str "tea") (.int 3)) [vetoedRead true]
        World.quoting = .ok (.single b c) w) ∧
      (logOf ((priceCall (.str "tea") (.int 3)).logged.execute World.services.logged
        (ErrorHandler.logged .rethrow) [vetoedRead true] (World.quoting, []))).length = 1 := by
  refine ⟨rfl, rfl, ?_, by decide +kernel⟩
  have hplanned : (ended (Call.plan World.services (priceCall (.str "tea") (.int 3))
      [vetoedRead true] World.quoting)).isOk = true := by decide +kernel
  cases hp : Call.plan World.services (priceCall (.str "tea") (.int 3)) [vetoedRead true]
      World.quoting with
  | error e w =>
    rw [hp] at hplanned
    cases hplanned
  | ok p w =>
    obtain ⟨-, b, c, rfl, -⟩ := plan_sync World.services _ (List.mem_singleton_self _) rfl hp
    exact ⟨b, c, w, rfl⟩

end CachedCalls
