import CachedCalls.Proofs.Session.Memos
import CachedCalls.Proofs.Execution.FailFast

set_option autoImplicit false

namespace CachedCalls

variable {σ : Type}

theorem stepwise_tracks (sv : Services σ) (h : ErrorHandler σ) (call : Call σ) :
    Stepwise (fun _ x y => Tracks x y fun _ _ => True) sv.logged h.logged call.logged sv h call where
  pure _ := Tracks.pure trivial
  bind hx hf := Tracks.bind hx (fun _ _ _ => trivial) fun a _ _ => hf a
  nullKey _ := Tracks.throw trivial
  test _ _ _ _ := ((Silent.of_silently _).adapt _).mono fun _ _ _ => trivial
  key _ _ _ := ((Silent.of_silently _).adapt _).mono fun _ _ _ => trivial
  verdict b := (verdict_silent sv b).mono fun _ _ _ => trivial
  get k c := (get_tracks sv h k c).mono fun _ _ _ => trivial
  put k v c := (sweep_one h (.put c k v)
    (recorded_touch (fun r => ⟨.put c k v, .ofDone r⟩) (sv.put c k v) fun _ => rfl)).mono
      fun _ _ _ => trivial
  evict immediate k c := (evictOne_tracks sv h immediate k c).mono fun _ _ _ => trivial
  clear immediate c := (clearOne_tracks sv h immediate c).mono fun _ _ _ => trivial
  invoked := (invoked_tracks call).mono fun _ _ _ => trivial

theorem execute_tracks (sv : Services σ) (h : ErrorHandler σ) (call : Call σ) (os : List Operation) :
    Tracks (call.logged.execute sv.logged h.logged os) (call.execute sv h os) fun _ _ => True := by
  refine (stepwise_tracks sv h call).execute (fun c k => ?_) (fun os => ?_) os
  · exact Tracks.adapt (compute_tracks sv c k call) fun _ _ _ => trivial
  · exact (plan_silent sv call os).mono fun _ _ _ => trivial

namespace World

def told (c : Call World) : Act (Logged World) Value := fun s =>
  let (os, w) := s.1.operations c.method c.target.type
  c.logged.execute services.logged (ErrorHandler.logged (.ofMode w.handler)) os (w, s.2)

theorem told_tracks (c : Call World) : Tracks (told c) (call c) fun _ _ => True :=
  fun w t => execute_tracks services (.ofMode (w.operations c.method c.target.type).2.handler) c
    (w.operations c.method c.target.type).1 (w.operations c.method c.target.type).2 t

variable {n : Naming}

/-- The method and the type of the target are those that `n` names, and the method of `c` goes the
    same way in worlds that are `Indistinct`, and leaves such worlds. -/
structure Oblivious (n : Naming) (c : Call World) : Prop where
  names : n.Names c.method c.target.type
  method : Blind (Indistinct (Ledger.Faithful n)) c.invoke

theorem Oblivious.execute_parallel {c : Call World} (hc : Oblivious n c) (mode : ErrorMode)
    {os : List Operation} {w v : World}
    (h : Indistinct (Ledger.Asking n c.method c.target.type os []) w v) (t : List Deed) :
    Parallel (Twins (Indistinct (Ledger.Faithful n))) (Twins (Indistinct (Ledger.Faithful n)))
      (c.logged.execute services.logged (ErrorHandler.logged (.ofMode mode)) os (w, t))
      (c.logged.execute services.logged (ErrorHandler.logged (.ofMode mode)) os (v, t)) := by
  obtain ⟨u, hu, rfl⟩ := plan_silent services c os w t
  obtain ⟨u', hu', rfl⟩ := plan_silent services c os v t
  have hplan := withLog_parallel (plan_parallel hc.names h) (t ++ [])
  rw [← hu, ← hu'] at hplan
  have hinvoke : Blind (Twins (Indistinct (Ledger.Faithful n))) c.logged.invoke :=
    recorded_blind (fun r => ⟨.invoke, .ofMethod r⟩) hc.method
  have hrun := services_blind.logged.run (fun acc e => silently_blind (ofMode_blind mode acc e))
    hinvoke
  rw [execute_planned]
  exact hplan.bind fun p q q' hq => hrun p q q' hq

theorem Oblivious.told_blind {c : Call World} (hc : Oblivious n c) :
    Blind (Twins (Indistinct (Ledger.Faithful n))) (told c) := by
  rintro ⟨w, t⟩ ⟨v, t'⟩ ⟨h, ht⟩
  cases ht
  obtain ⟨hos, hasking⟩ := operations_indistinct hc.names h
  have hrun := hc.execute_parallel (w.operations c.method c.target.type).2.handler hasking t
  unfold told
  simp only [← hos, ← hasking.handler]
  exact hrun

theorem Oblivious.call_blind {c : Call World} (hc : Oblivious n c) :
    Blind (Indistinct (Ledger.Faithful n)) (call c) := by
  intro w v h
  obtain ⟨u, hu, -⟩ := told_tracks c w []
  obtain ⟨u', hu', -⟩ := told_tracks c v []
  have htold := hc.told_blind (w, []) (v, []) ⟨h, rfl⟩
  rw [hu, hu'] at htold
  exact parallel_of_withLog htold

theorem clear_blind :
    Blind (Indistinct (Ledger.Faithful n)) (modify clearMetadata : EStateM String World Unit) :=
  fun _ _ h => .ok rfl rfl h.clear.symm.clear.symm

end World

inductive Visit where
  | call (c : Call World)
  | clear

def Visit.isCall : Visit → Bool
  | call _ => true
  | clear => false

namespace World

def visits : List Visit → Logged World → List (Except CallError Value) × Logged World
  | [], s => ([], s)
  | .call c :: vs, s =>
    let r := told c s
    let (rs, s) := visits vs (stateOf r)
    (ended r :: rs, s)
  | .clear :: vs, s => visits vs (s.1.clearMetadata, s.2)

variable {n : Naming}

theorem visits_twins {vs : List Visit} (hvs : ∀ c, .call c ∈ vs → Oblivious n c)
    {s s' : Logged World} (h : Twins (Indistinct (Ledger.Faithful n)) s s') :
    (visits vs s).1 = (visits (vs.filter Visit.isCall) s').1 ∧
      Twins (Indistinct (Ledger.Faithful n)) (visits vs s).2
        (visits (vs.filter Visit.isCall) s').2 := by
  -- A clear is made in one of the two sessions only; they stay indistinct all the same.
  induction vs generalizing s s' with
  | nil => exact ⟨rfl, h⟩
  | cons v vs ih =>
    have hrest : ∀ c, .call c ∈ vs → Oblivious n c := fun c hc => hvs c (List.mem_cons_of_mem v hc)
    cases v with
    | clear => exact ih hrest ⟨h.1.clear, h.2⟩
    | call c =>
      obtain ⟨hended, hstate⟩ := ((hvs c List.mem_cons_self).told_blind s s' h).ended
      obtain ⟨houtcomes, hend⟩ := ih hrest hstate
      refine ⟨?_, hend⟩
      rw [List.filter_cons_of_pos rfl]
      simp only [visits]
      rw [hended, houtcomes]

/-- Let nothing be memoized in `w`. A series `vs` of calls and clears, and the same calls without
    the clears, end in the same way call by call, with the same log, and in worlds that are equal
    once their memos are cleared. -/
theorem visits_cleared (n : Naming) (w : World) (hw : w.clearMetadata = w) (vs : List Visit)
    (hvs : ∀ c, .call c ∈ vs → Oblivious n c) :
    (visits vs (w, [])).1 = (visits (vs.filter Visit.isCall) (w, [])).1 ∧
      (visits vs (w, [])).2.2 = (visits (vs.filter Visit.isCall) (w, [])).2.2 ∧
      (visits vs (w, [])).2.1.clearMetadata =
        (visits (vs.filter Visit.isCall) (w, [])).2.1.clearMetadata := by
  have hfaithful : w.ledger.Faithful n := hw ▸ w.faithful_clearMetadata
  have htwins : Twins (Indistinct (Ledger.Faithful n)) (w, []) (w, []) :=
    ⟨⟨rfl, hfaithful, hfaithful⟩, rfl⟩
  obtain ⟨houtcomes, hworld, hlog⟩ := visits_twins hvs htwins
  exact ⟨houtcomes, hlog, hworld.1⟩

def priced : World :=
  { plain with
    sources :=
      [.fallback
        { declared := { methods := [((priceCall .null .null).method.key, [readPrices])] } }] }

def resale (item other price : Value) : Call World :=
  { priceCall item price with
    invoke := do
      let asked ← (call (priceCall other price)).adaptExcept CallError.message
      modify clearMetadata
      pure asked }

def shopNaming : Naming := ⟨fun _ => (priceCall .null .null).method, fun _ => shop⟩

theorem oblivious_priceCall (item price : Value) : Oblivious shopNaming (priceCall item price) where
  names := ⟨rfl, rfl⟩
  method := Concur.pure price

theorem oblivious_resale (item other price : Value) :
    Oblivious shopNaming (resale item other price) where
  names := ⟨rfl, rfl⟩
  method :=
    ((oblivious_priceCall other price).call_blind.adapt CallError.message).bind fun asked =>
      clear_blind.bind fun _ => Concur.pure asked

def resales : List Visit :=
  [.call (resale (.str "milk") (.str "tea") (.int 3)), .clear,
    .call (priceCall (.str "tea") (.int 4)), .clear, .call (priceCall (.str "milk") (.int 5))]

theorem visits_cleared_resale :
    priced.clearMetadata = priced ∧ (∀ c, .call c ∈ resales → Oblivious shopNaming c) ∧
      (visits resales (priced, [])).1 = [.ok (.int 3), .ok (.int 3), .ok (.int 3)] ∧
      (visits (resales.filter Visit.isCall) (priced, [])).1 = (visits resales (priced, [])).1 ∧
      (visits (resales.filter Visit.isCall) (priced, [])).2.2 =
        (visits resales (priced, [])).2.2 := by
  have hvs : ∀ c, .call c ∈ resales → Oblivious shopNaming c := by
    intro c hc
    simp only [resales, List.mem_cons, List.not_mem_nil, Visit.call.injEq, reduceCtorEq, false_or,
      or_false] at hc
    obtain rfl | rfl | rfl := hc
    · exact oblivious_resale _ _ _
    · exact oblivious_priceCall _ _
    · exact oblivious_priceCall _ _
  obtain ⟨houtcomes, hlog, -⟩ := visits_cleared shopNaming priced rfl resales hvs
  exact ⟨rfl, hvs, by decide +kernel, houtcomes.symm, hlog.symm⟩

end World

end CachedCalls
