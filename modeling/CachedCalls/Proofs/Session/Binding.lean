import CachedCalls.Proofs.Execution.Raise
import CachedCalls.Proofs.Manager.Names
import CachedCalls.Proofs.Session.Synchronized
import Mathlib.Data.List.Forall2

set_option autoImplicit false

namespace CachedCalls

def Metadata.names (d : Metadata) : List String := d.resolver.fixed.getD d.operation.cacheNames

namespace World

def offers (w : World) (r : ManagerRef) (n : String) : Bool :=
  match w.managers.lookup r with
  | some m => m.offers n
  | none => false

def holds? (w : World) (r : ManagerRef) (n : String) : Option CacheRef :=
  match w.managers.lookup r with
  | some m => (m.holds? n).map (⟨·, n⟩)
  | none => none

/-- For the operations `os`, the world `w'` has the metadata, the names on offer and the caches that
    `w` has. -/
structure Recalls (os : List Operation) (m : Method) (t : TypeDecl) (w w' : World) : Prop where
  wiring : ∀ o ∈ os, w'.wiring.metadata o m t = w.wiring.metadata o m t
  known : ∀ o ∈ os, w.Knows o m t → w'.Knows o m t
  offers : ∀ r n, w'.offers r n = w.offers r n
  holds : ∀ r n c, w.holds? r n = some c → w'.holds? r n = some c

variable {os : List Operation} {m : Method} {t : TypeDecl}

namespace Recalls

theorem refl (w : World) : Recalls os m t w w where
  wiring _ _ := rfl
  known _ _ hk := hk
  offers _ _ := rfl
  holds _ _ _ hc := hc

theorem trans {w w' w'' : World} (h : Recalls os m t w w') (h' : Recalls os m t w' w'') :
    Recalls os m t w w'' where
  wiring o ho := (h'.wiring o ho).trans (h.wiring o ho)
  known o ho hk := h'.known o ho (h.known o ho hk)
  offers r n := (h'.offers r n).trans (h.offers r n)
  holds r n c hc := h'.holds r n c (h.holds r n c hc)

theorem of_eq {w w' : World} (hw : w'.wiring = w.wiring) (hk : w'.metadata = w.metadata)
    (hm : w'.managers = w.managers) : Recalls os m t w w' where
  wiring _ _ := by rw [hw]
  known _ _ hk' := by
    unfold Knows
    rw [hw, hk]
    exact hk'
  offers _ _ := by
    unfold World.offers
    rw [hm]
  holds _ _ _ hc := by
    unfold World.holds? at hc ⊢
    rw [hm]
    exact hc

theorem tells {w w' : World} (h : Recalls os m t w w') (hw : w.Tells os m t) :
    w'.Tells os m t :=
  ⟨hw.apart, fun o ho => h.known o ho (hw.known o ho)⟩

end Recalls

theorem askMetadata_recalls (hos : Apart os) {o : Operation} (ho : o ∈ os) :
    Keeps (Recalls os m t) (askMetadata o m t) := by
  intro w
  rw [askMetadata_state]
  exact ⟨fun _ _ => rfl, fun p hp hk => hk.ask hos ho hp, fun _ _ => rfl, fun _ _ _ hc => hc⟩

theorem find_recalls {r : ManagerRef} {w : World} {mg mg' : Manager} {h : Heap} {refused : Bool}
    (hr : w.managers.lookup r = some mg) (hrem : mg.Remembers mg') :
    Recalls os m t w { w with
      managers := w.managers.map fun e => if e.1 = r then (r, mg') else e
      heap := h
      refused := refused } := by
  have hlookup (q : ManagerRef) : (w.managers.map fun e => if e.1 = r then (r, mg') else e).lookup q =
      if q = r then some mg' else w.managers.lookup q := by
    rw [lookup_replace]
    by_cases hq : q = r
    · rw [if_pos hq, if_pos hq, hq, hr]
      rfl
    · rw [if_neg hq, if_neg hq]
  refine ⟨fun _ _ => rfl, fun _ _ hk => hk, fun q p => ?_, fun q p c hc => ?_⟩
  · unfold offers
    simp only [hlookup]
    by_cases hq : q = r
    · rw [if_pos hq, hq, hr]
      exact hrem.offers p
    · rw [if_neg hq]
  · unfold holds? at hc ⊢
    simp only [hlookup]
    by_cases hq : q = r
    · rw [if_pos hq]
      rw [hq, hr] at hc
      obtain ⟨i, hi, hc⟩ := Option.map_eq_some_iff.1 hc
      exact Option.map_eq_some_iff.2 ⟨i, hrem.holds p i hi, hc⟩
    · rw [if_neg hq]
      exact hc

variable (os m t) in
theorem find_cases (r : ManagerRef) (n : String) (w : World) :
    (∃ w', w.offers r n = false ∧ find r n w = (none, w') ∧ Recalls os m t w w') ∨
      ∃ c w', w.offers r n = true ∧ find r n w = (some c, w') ∧ w'.holds? r n = some c ∧
        Recalls os m t w w' := by
  unfold find offers
  cases hr : w.managers.lookup r with
  | none => exact .inl ⟨w, rfl, rfl, .refl w⟩
  | some mg =>
    have hasked := Manager.asked n mg w.heap
    simp only [Manager.offers]
    generalize mg.find n w.heap = x at hasked ⊢
    cases hasked with
    | nothing hp | refused hp =>
      rw [hp]
      exact .inl ⟨_, rfl, rfl, find_recalls hr (.refl mg)⟩
    | offered hp hheld hrem =>
      rw [hp]
      refine .inr ⟨_, _, rfl, rfl, ?_, find_recalls hr hrem⟩
      unfold holds?
      simp only [lookup_replace, if_true, hr, Option.map_some]
      exact congrArg (Option.map _) hheld

def Held (w : World) (r : ManagerRef) (ns : List String) (cs : List CacheRef) : Prop :=
  ns.map (w.holds? r) = cs.map some

theorem Held.recalls {w w' : World} {r : ManagerRef} {ns : List String} {cs : List CacheRef}
    (hw : w.Held r ns cs) (h : Recalls os m t w w') : w'.Held r ns cs := by
  unfold Held at hw ⊢
  induction ns generalizing cs with
  | nil => exact hw
  | cons n ns ih =>
    cases cs with
    | nil => cases hw
    | cons c cs =>
      rw [List.map_cons, List.map_cons] at hw ⊢
      obtain ⟨hc, hcs⟩ := List.cons.inj hw
      rw [h.holds r n c hc, ih hcs]

variable (os m t) in
theorem findAll_cases (r : ManagerRef) (op : String) (ns : List String) (w : World) :
    (∃ n e w', n ∈ ns ∧ w.offers r n = false ∧ services.findAll r op ns w = .error e w' ∧
        Recalls os m t w w') ∨
      ∃ cs w', (∀ n ∈ ns, w.offers r n = true) ∧ services.findAll r op ns w = .ok cs w' ∧
        w'.Held r ns cs ∧ Recalls os m t w w' := by
  induction ns generalizing w with
  | nil => exact .inr ⟨[], w, fun _ hn => (nomatch hn), rfl, rfl, .refl w⟩
  | cons n ns ih =>
    have hservice : services.find r n w = find r n w := rfl
    simp only [Services.findAll, hservice]
    obtain ⟨w₁, hn, hfind, hrec⟩ | ⟨c, w₁, hn, hfind, hheld, hrec⟩ :=
      find_cases os m t r n w
    · rw [hfind]
      exact .inl ⟨n, _, w₁, List.mem_cons_self, hn, rfl, hrec⟩
    · rw [hfind]
      simp only [map_eq_pure_bind]
      obtain ⟨p, e, w₂, hp, hno, hfail, hrec'⟩ | ⟨cs, w₂, hall, hok, hheld', hrec'⟩ := ih w₁
      · rw [bind_of_error hfail]
        refine .inl ⟨p, e, w₂, List.mem_cons_of_mem n hp, ?_, rfl, hrec.trans hrec'⟩
        rw [← hrec.offers]
        exact hno
      · rw [bind_of_ok hok]
        refine .inr ⟨c :: cs, w₂, ?_, rfl, ?_, hrec.trans hrec'⟩
        · refine List.forall_mem_cons.2 ⟨hn, fun p hp => ?_⟩
          rw [← hrec.offers]
          exact hall p hp
        · unfold Held at hheld' ⊢
          rw [List.map_cons, List.map_cons, hrec'.holds r n c hheld, hheld']

inductive Faulty (w : World) (o : Operation) (m : Method) (t : TypeDecl) : Prop where
  | wiring {f : ConfigFault} (hm : w.wiring.metadata o m t = .error f) : Faulty w o m t
  | nameless {d : Metadata} (hm : w.wiring.metadata o m t = .ok d) (hd : d.names = []) :
      Faulty w o m t
  | unknown {d : Metadata} {n : String} (hm : w.wiring.metadata o m t = .ok d) (hn : n ∈ d.names)
      (hno : w.offers d.resolver.manager n = false) : Faulty w o m t

theorem Recalls.faulty {w w' : World} (h : Recalls os m t w w') {o : Operation} (ho : o ∈ os) :
    w'.Faulty o m t ↔ w.Faulty o m t := by
  have hgo {v v' : World} (hwiring : v'.wiring.metadata o m t = v.wiring.metadata o m t)
      (hoffers : ∀ r n, v'.offers r n = v.offers r n) (hf : v.Faulty o m t) :
      v'.Faulty o m t := by
    cases hf with
    | wiring hm => exact .wiring (hwiring.trans hm)
    | nameless hm hd => exact .nameless (hwiring.trans hm) hd
    | unknown hm hn hno => exact .unknown (hwiring.trans hm) hn ((hoffers _ _).trans hno)
  have hwiring := h.wiring o ho
  exact ⟨hgo hwiring.symm fun r n => (h.offers r n).symm, hgo hwiring h.offers⟩

/-- The operation `o` bound as `b`: with the metadata that the wiring of `w` gives for `o`, and with
    the caches that `w` holds under its names. -/
structure Binds (w : World) (call : Call World) (args : List Value) (o : Operation) (b : Bound) :
    Prop where
  metadata : w.wiring.metadata o call.method call.target.type = .ok b.metadata
  target : b.target = call.target
  args : b.args = args
  held : w.Held b.metadata.resolver.manager b.metadata.names b.caches

section Bind

variable {call : Call World} {args : List Value} {o : Operation}

namespace Binds

variable {w : World} {b : Bound}

theorem operation (h : w.Binds call args o b) : b.operation = o :=
  Wiring.metadata_operation h.metadata

theorem length_caches (h : w.Binds call args o b) : b.caches.length = b.metadata.names.length := by
  have hlength := congrArg List.length h.held
  rw [List.length_map, List.length_map] at hlength
  exact hlength.symm

theorem recalls (h : w.Binds call args o b) (ho : o ∈ os) {w' : World}
    (hw : Recalls os call.method call.target.type w w') : w'.Binds call args o b where
  metadata := (hw.wiring o ho).trans h.metadata
  target := h.target
  args := h.args
  held := h.held.recalls hw

theorem eq {b' : Bound} (h : w.Binds call args o b) (h' : w.Binds call args o b') : b = b' := by
  have hmeta : b.metadata = b'.metadata := Except.ok.inj (h.metadata.symm.trans h'.metadata)
  have hcaches : b.caches = b'.caches := by
    have hheld := h.held
    unfold Held at hheld
    rw [hmeta] at hheld
    exact (List.map_inj_right fun _ _ => Option.some.inj).1 (hheld.symm.trans h'.held)
  have htarget := h.target.trans h'.target.symm
  have hargs := h.args.trans h'.args.symm
  cases b
  cases b'
  simp only at hmeta hcaches htarget hargs
  subst hmeta hcaches htarget hargs
  rfl

end Binds

theorem map_operation {w : World} {bs : List Bound} (hbs : List.Forall₂ (w.Binds call args) os bs) :
    bs.map (·.operation) = os := by
  induction hbs with
  | nil => rfl
  | cons hb _ ih => rw [List.map_cons, hb.operation, ih]

variable (args) in
theorem bind_cases {w : World} (hos : Apart os) (ho : o ∈ os)
    (hk : w.Knows o call.method call.target.type) :
    (∃ e w', w.Faulty o call.method call.target.type ∧ services.bind call args o w = .error e w' ∧
        Recalls os call.method call.target.type w w') ∨
      ∃ b w', ¬ w.Faulty o call.method call.target.type ∧
        services.bind call args o w = .ok b w' ∧ w'.Binds call args o b ∧
        Recalls os call.method call.target.type w w' := by
  have hended := (askMetadata_ended o w).trans hk
  have hrec := askMetadata_recalls (m := call.method) (t := call.target.type) hos ho w
  cases hask : askMetadata o call.method call.target.type w with
  | error f w₁ =>
    rw [hask] at hended hrec
    exact .inl ⟨_, w₁, .wiring hended.symm, bind_of_error (adapt_of_error hask), hrec⟩
  | ok d w₁ =>
    rw [hask] at hended hrec
    have hd : w.wiring.metadata o call.method call.target.type = .ok d := hended.symm
    have hrec : Recalls os call.method call.target.type w w₁ := hrec
    have hstart : services.bind call args o w =
        (services.findAll d.resolver.manager d.operation.description d.names >>= fun cs =>
          if h : cs = [] then throw (.configuration (.noCaches d.operation.description))
          else pure ⟨d, call.target, args, cs, h⟩) w₁ := bind_of_ok (adapt_ok.2 hask)
    obtain ⟨n, e, w₂, hn, hno, hfail, hrec'⟩ | ⟨cs, w₂, hall, hok, hheld, hrec'⟩ :=
      findAll_cases os call.method call.target.type d.resolver.manager
        d.operation.description d.names w₁
    · rw [hrec.offers] at hno
      exact .inl ⟨e, w₂, .unknown hd hn hno, hstart.trans (bind_of_error hfail),
        hrec.trans hrec'⟩
    · have hrun := hstart.trans (bind_of_ok hok)
      have hlength := congrArg List.length hheld
      rw [List.length_map, List.length_map] at hlength
      by_cases hcs : cs = []
      · rw [dif_pos hcs] at hrun
        rw [hcs] at hlength
        exact .inl ⟨_, w₂, .nameless hd (List.length_eq_zero_iff.1 hlength), hrun, hrec.trans hrec'⟩
      · rw [dif_neg hcs] at hrun
        refine .inr ⟨_, w₂, fun hf => ?_, hrun, ⟨?_, rfl, rfl, hheld⟩, hrec.trans hrec'⟩
        · cases hf with
          | wiring hm => cases hm.symm.trans hd
          | nameless hm hnil =>
            cases hm.symm.trans hd
            rw [hnil] at hlength
            exact hcs (List.length_eq_zero_iff.1 hlength.symm)
          | unknown hm hn hno =>
            cases hm.symm.trans hd
            rw [← hrec.offers, hall _ hn] at hno
            cases hno
        · exact ((hrec.trans hrec').wiring o ho).trans hd

variable (args) in
theorem bindAll_cases {ps : List Operation} (hps : ∀ o ∈ ps, o ∈ os) {w : World}
    (hw : w.Tells os call.method call.target.type) :
    (∃ o e w', o ∈ ps ∧ w.Faulty o call.method call.target.type ∧
        services.bindAll call args ps w = .error e w' ∧
        Recalls os call.method call.target.type w w') ∨
      ∃ bs w', (∀ o ∈ ps, ¬ w.Faulty o call.method call.target.type) ∧
        services.bindAll call args ps w = .ok bs w' ∧ List.Forall₂ (w'.Binds call args) ps bs ∧
        Recalls os call.method call.target.type w w' := by
  induction ps generalizing w with
  | nil => exact .inr ⟨[], w, fun _ ho => (nomatch ho), rfl, .nil, .refl w⟩
  | cons o ps ih =>
    obtain ⟨ho, hps⟩ := List.forall_mem_cons.1 hps
    simp only [Services.bindAll]
    obtain ⟨e, w₁, hf, hfail, hrec⟩ | ⟨b, w₁, hf, hok, hb, hrec⟩ :=
      bind_cases args hw.apart ho (hw.known o ho)
    · exact .inl ⟨o, e, w₁, List.mem_cons_self, hf, bind_of_error hfail, hrec⟩
    · rw [bind_of_ok hok]
      obtain ⟨p, e, w₂, hp, hfp, hfail, hrec'⟩ | ⟨bs, w₂, hall, hoks, hbs, hrec'⟩ :=
        ih hps (hrec.tells hw)
      · exact .inl ⟨p, e, w₂, List.mem_cons_of_mem o hp, (hrec.faulty (hps p hp)).1 hfp,
          bind_of_error hfail, hrec.trans hrec'⟩
      · refine .inr ⟨b :: bs, w₂, ?_, bind_of_ok hoks, .cons (hb.recalls ho hrec') hbs,
          hrec.trans hrec'⟩
        exact List.forall_mem_cons.2 ⟨hf, fun p hp hfp => hall p hp ((hrec.faulty (hps p hp)).2 hfp)⟩

theorem bindAll_ok {w w₁ : World} {bs : List Bound} (hw : w.Tells os call.method call.target.type)
    (hb : services.bindAll call args os w = .ok bs w₁) :
    (∀ o ∈ os, ¬ w.Faulty o call.method call.target.type) ∧
      List.Forall₂ (w₁.Binds call args) os bs ∧
      Recalls os call.method call.target.type w w₁ := by
  obtain ⟨o, e, w₂, -, -, hfail, -⟩ | ⟨bs', w₂, hall, hok, hbs, hrec⟩ :=
    bindAll_cases args (fun o ho => ho) hw
  · cases hfail.symm.trans hb
  · cases hok.symm.trans hb
    exact ⟨hall, hbs, hrec⟩

theorem bindAll_again {w w₁ w' : World} {bs : List Bound}
    (hw : w.Tells os call.method call.target.type)
    (hb : services.bindAll call args os w = .ok bs w₁)
    (hrec : Recalls os call.method call.target.type w₁ w') :
    ∃ w₂, services.bindAll call args os w' = .ok bs w₂ := by
  obtain ⟨hall, hbs, hfirst⟩ := bindAll_ok hw hb
  have hrec' : Recalls os call.method call.target.type w w' := hfirst.trans hrec
  obtain ⟨o, e, w₂, ho, hf, -⟩ | ⟨bs', w₂, -, hok, hbs', hrec₂⟩ :=
    bindAll_cases args (fun o ho => ho) (hrec'.tells hw)
  · exact absurd ((hrec'.faulty ho).1 hf) (hall o ho)
  · -- Both lists are bound to the operations in the last of the worlds.
    have hmem : List.Forall₂ (fun o b => o ∈ os ∧ w₁.Binds call args o b) os bs :=
      (List.forall₂_and_left _ _).2 ⟨fun o ho => ho, hbs⟩
    have hlast : List.Forall₂ (w₂.Binds call args) os bs :=
      hmem.imp fun o b hob => hob.2.recalls hob.1 (hrec.trans hrec₂)
    have hsame : bs' = bs := List.right_unique_forall₂' (fun _ _ _ h h' => h.eq h') hbs' hlast
    exact ⟨w₂, hsame ▸ hok⟩

end Bind

end World

end CachedCalls
