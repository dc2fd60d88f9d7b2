import CachedCalls.Proofs.Session.Binding
import CachedCalls.Proofs.Session.FinalStore

set_option autoImplicit false

namespace CachedCalls

variable {ε α β : Type} {ps : Nat → Prop} {os : List Operation} {m : Method} {t : TypeDecl}

namespace World

theorem withCompiled_recalls (f : Compiled → Except ExprError α × Compiled) :
    Keeps (Recalls os m t) (withCompiled f) := by
  intro w
  unfold withCompiled
  generalize f w.compiled = x
  obtain ⟨r, c⟩ := x
  cases r <;> exact .of_eq rfl rfl rfl

theorem evaluating_recalls : services.evaluating.Keeps (Recalls os m t) where
  refl := .refl
  trans := .trans
  metadata _ _ _ w := .refl w
  find _ _ w := .refl w
  test u el t sc := withCompiled_recalls fun c => c.test u el t sc
  key el t sc := withCompiled_recalls fun c => c.value .key el t sc

theorem passes_recalls (b : Bound) (r : ResultState) :
    Keeps (Recalls os m t) (b.passes services r) :=
  evaluating_recalls.passes b r

theorem key_recalls (b : Bound) (r : ResultState) : Keeps (Recalls os m t) (b.key services r) :=
  evaluating_recalls.drawn b r

theorem allows_recalls (b : Bound) (r : ResultState) :
    Keeps (Recalls os m t) (b.allows services r) :=
  evaluating_recalls.allows b r

theorem note_recalls (w : World) (what : AccessName) (n : String) (k : Option Key) (e : Effect) :
    Recalls os m t w (w.note what n k e) := by
  unfold note name
  split
  · exact .of_eq rfl rfl rfl
  · cases k with
    | none => exact .of_eq rfl rfl rfl
    | some k =>
      simp only
      split <;> exact .of_eq rfl rfl rfl

theorem access_recalls (what : AccessName) (c : CacheRef) (k : Option Key) (shown : α → Effect)
    (f : Cache → Except CacheError (α × Cache)) :
    Keeps (Recalls os m t) (access what c k shown f) := by
  intro w
  have hset (x : Cache) : Recalls os m t w (w.setCache c x) := .of_eq rfl rfl rfl
  unfold access
  simp only
  split
  · exact (hset _).trans (note_recalls _ _ _ _ _)
  · exact note_recalls _ _ _ _ _

theorem get_recalls (c : CacheRef) (k : Key) : Keeps (Recalls os m t) (services.get c k) := by
  change Keeps (Recalls os m t) (access .get c (some k) .found fun x => .ok (Backend.get x k, x))
  exact access_recalls _ _ _ _ _

theorem put_recalls (c : CacheRef) (k : Key) (v : Value) :
    Keeps (Recalls os m t) (services.put c k v) := by
  change Keeps (Recalls os m t) (access .put c (some k) (fun _ => .stored v) fun x =>
    (Backend.put x k v).map fun x => ((), x))
  exact access_recalls _ _ _ _ _

end World

theorem guard_open (h : ErrorHandler World) (acc : Access) (a : α) {x : EStateM CacheError World α}
    {R : Store → α → Store → Prop} (hx : Serves ps x R) (hrec : Keeps (World.Recalls os m t) x)
    {w : World} (hw : w.Ready ps) : ∃ b w', h.guard acc a x w = .ok b w' ∧ w'.Ready ps ∧
      R w.store b w'.store ∧ w.Recalls os m t w' := by
  obtain ⟨b, w', hrun, hw', hR⟩ := hx w hw
  have hkept := hrec w
  rw [hrun] at hkept
  refine ⟨b, w', ?_, hw', hR, hkept⟩
  unfold ErrorHandler.guard
  rw [hrun]

/-- Where the maps in `ps` are open, `x` ends as `f` says of the store, and leaves the store and the
    bindings of `os` as they were. -/
def Settles (ps : Nat → Prop) (os : List Operation) (m : Method) (t : TypeDecl)
    (x : EStateM ε World α) (f : Store → Except ε α) : Prop :=
  ∀ w, w.Ready ps → ∃ w', x w = resultOf (f w.store) w' ∧ w'.Ready ps ∧ w'.store = w.store ∧
    w.Recalls os m t w'

namespace Settles

theorem pure (a : α) :
    Settles ps os m t (Pure.pure a : EStateM ε World α) (fun _ => .ok a) := by
  intro w hw
  exact ⟨w, rfl, hw, rfl, .refl w⟩

theorem congr {x : EStateM ε World α} {f g : Store → Except ε α} (hx : Settles ps os m t x f)
    (h : ∀ S, f S = g S) : Settles ps os m t x g :=
  funext h ▸ hx

theorem bind {x : EStateM ε World α} {y : α → EStateM ε World β} {f : Store → Except ε α}
    {g : α → Store → Except ε β} (hx : Settles ps os m t x f)
    (hy : ∀ a, Settles ps os m t (y a) (g a)) :
    Settles ps os m t (x >>= y) (fun S => f S >>= fun a => g a S) := by
  intro w hw
  obtain ⟨w₁, hrun, hw₁, hS₁, hrec₁⟩ := hx w hw
  simp only
  cases hf : f w.store with
  | error e =>
    rw [hf] at hrun
    exact ⟨w₁, bind_of_error hrun, hw₁, hS₁, hrec₁⟩
  | ok a =>
    rw [hf] at hrun
    obtain ⟨w₂, hrun₂, hw₂, hS₂, hrec₂⟩ := hy a w₁ hw₁
    rw [hS₁] at hrun₂
    exact ⟨w₂, (bind_of_ok hrun).trans hrun₂, hw₂, hS₂.trans hS₁, hrec₁.trans hrec₂⟩

theorem of_keeps {x : EStateM ε World α} {r : Except ε α} (hstill : Keeps World.Still x)
    (hrec : Keeps (World.Recalls os m t) x) (hr : ∀ w, ended (x w) = r) :
    Settles ps os m t x (fun _ => r) := by
  intro w hw
  have hkept := hstill w
  refine ⟨stateOf (x w), ?_, hw.still hkept, hkept.store, hrec w⟩
  rw [← hr w, resultOf_ended]

theorem passes (b : Bound) (r : ResultState) :
    Settles ps os m t (b.passes World.services r) (fun _ => (b.judge r).mapError .expression) :=
  of_keeps (World.services_still.passes b r) (World.passes_recalls b r)
    (World.services_evaluates.ended_passes b r)

theorem key (b : Bound) (r : ResultState) :
    Settles ps os m t (b.key World.services r) (fun _ => b.finalKey r) :=
  of_keeps (World.services_still.drawn b r) (World.key_recalls b r)
    (World.services_evaluates.ended_key b r)

theorem get (h : ErrorHandler World) (k : Key) {c : CacheRef} (hc : ps c.place) :
    Settles ps os m t (h.guard (.get c k) none (World.services.get c k))
      (fun S => .ok (S c.place k)) := by
  intro w hw
  obtain ⟨found, w', hrun, hw', ⟨hS, rfl⟩, hrec⟩ :=
    guard_open h (.get c k) none (Serves.get hc k) (World.get_recalls c k) hw
  exact ⟨w', hrun, hw', hS, hrec⟩

end Settles

def firstIn (S : Store) (k : Key) (cs : List CacheRef) : Option Value :=
  cs.findSome? fun c => S c.place k

theorem firstHit_settles (h : ErrorHandler World) (k : Key) (cs : List CacheRef)
    (hcs : ∀ c ∈ cs, ps c.place) :
    Settles ps os m t (Call.firstHit World.services h k cs) (fun S => .ok (firstIn S k cs)) := by
  induction cs with
  | nil => exact Settles.pure none
  | cons c cs ih =>
    obtain ⟨hc, hcs⟩ := List.forall_mem_cons.1 hcs
    unfold Call.firstHit
    refine ((Settles.get h k hc).bind (g := fun found S => .ok (found.or (firstIn S k cs))) ?_).congr
      fun S => ?_
    · intro found
      cases found with
      | some v => exact Settles.pure (some v)
      | none => exact (ih hcs).congr fun S => by rw [Option.none_or]
    · change Except.ok _ = Except.ok _
      unfold firstIn
      rw [List.findSome?_cons]
      cases S c.place k <;> rfl

def Search.after (q : Request) : Search → Search
  | .hit v => .hit v
  | .missed rs => .missed (q :: rs)

/-- How `Call.search` ends in a world with the store `S`. -/
def searching (S : Store) : List Bound → Except CallError Search
  | [] => .ok (.missed [])
  | b :: bs => do
    let passing ← (b.judge .unset).mapError .expression
    if passing then
      let k ← b.finalKey .unset
      match firstIn S k b.caches with
      | some v => .ok (.hit v)
      | none => (searching S bs).map (Search.after ⟨b, k⟩)
    else searching S bs

theorem search_settles (h : ErrorHandler World) (bs : List Bound)
    (hbs : ∀ b ∈ bs, ∀ c ∈ b.caches, ps c.place) :
    Settles ps os m t (Call.search World.services h bs) (searching · bs) := by
  induction bs with
  | nil => exact Settles.pure (Search.missed [])
  | cons b bs ih =>
    obtain ⟨hcs, hbs⟩ := List.forall_mem_cons.1 hbs
    have hrest := ih hbs
    refine (Settles.passes b .unset).bind fun passing => ?_
    cases passing with
    | false => exact hrest
    | true =>
      refine (Settles.key b .unset).bind fun k => ?_
      refine ((firstHit_settles h k b.caches hcs).bind (g := fun found S => match found with
        | some v => .ok (.hit v)
        | none => (searching S bs).map (Search.after ⟨b, k⟩)) fun found => ?_).congr fun S => rfl
      cases found with
      | some v => exact Settles.pure (Search.hit v)
      | none =>
        refine (hrest.bind (g := fun x _ => .ok (x.after ⟨b, k⟩)) fun x => ?_).congr fun S => ?_
        · cases x with
          | hit v => exact Settles.pure (Search.hit v)
          | missed rs => exact Settles.pure (Search.missed (⟨b, k⟩ :: rs))
        · cases searching S bs <;> rfl

section Again

variable {S : Store} {b : Bound} {bs : List Bound}

theorem searching_skip (hj : b.judge .unset = .ok false) :
    searching S (b :: bs) = searching S bs := by
  rw [searching, hj]
  rfl

theorem searching_take {k : Key} (hj : b.judge .unset = .ok true) (hk : b.finalKey .unset = .ok k) :
    searching S (b :: bs) = match firstIn S k b.caches with
      | some v => .ok (.hit v)
      | none => (searching S bs).map (Search.after ⟨b, k⟩) := by
  simp only [searching, hj, hk]
  rfl

theorem searching_missed {rs : List Request} (h : searching S (b :: bs) = .ok (.missed rs)) :
    (b.judge .unset = .ok false ∧ searching S bs = .ok (.missed rs)) ∨
      ∃ k rs', b.judge .unset = .ok true ∧ b.finalKey .unset = .ok k ∧
        firstIn S k b.caches = none ∧ searching S bs = .ok (.missed rs') ∧ rs = ⟨b, k⟩ :: rs' := by
  cases hj : b.judge .unset with
  | error e =>
    rw [searching, hj] at h
    cases h
  | ok passing =>
    cases passing with
    | false =>
      rw [searching_skip hj] at h
      exact .inl ⟨rfl, h⟩
    | true =>
      cases hk : b.finalKey .unset with
      | error e =>
        simp only [searching, hj, hk] at h
        cases h
      | ok k =>
        rw [searching_take hj hk] at h
        cases hfirst : firstIn S k b.caches with
        | some v =>
          rw [hfirst] at h
          cases h
        | none =>
          rw [hfirst] at h
          cases hrest : searching S bs with
          | error e =>
            rw [hrest] at h
            cases h
          | ok x =>
            rw [hrest] at h
            cases x with
            | hit v => cases h
            | missed rs' =>
              cases h
              exact .inr ⟨k, rs', rfl, rfl, hfirst, rfl, rfl⟩

theorem firstIn_set {k : Key} {cs : List CacheRef} (h : firstIn S k cs = none)
    (P : Nat → Key → Bool) (v : Value) :
    firstIn (S.set P (some v)) k cs = if cs.any (fun c => P c.place k) then some v else none := by
  induction cs with
  | nil => rfl
  | cons c cs ih =>
    unfold firstIn at h ih ⊢
    rw [List.findSome?_cons] at h ⊢
    cases hS : S c.place k with
    | some u =>
      rw [hS] at h
      cases h
    | none =>
      rw [hS] at h
      have hset : S.set P (some v) c.place k = if P c.place k then some v else none := by
        rw [← hS]
        rfl
      rw [hset, ih h]
      cases hP : P c.place k <;> simp [hP]

theorem searching_set {rs : List Request} (h : searching S bs = .ok (.missed rs)) {q : Request}
    (hq : q ∈ rs) {P : Nat → Key → Bool} (hP : ∃ c ∈ q.bound.caches, P c.place q.key = true)
    (v : Value) : searching (S.set P (some v)) bs = .ok (.hit v) := by
  induction bs generalizing rs with
  | nil =>
    cases h
    cases hq
  | cons b bs ih =>
    obtain ⟨hj, hrest⟩ | ⟨k, rs', hj, hk, hnone, hrest, rfl⟩ := searching_missed h
    · rw [searching_skip hj]
      exact ih hrest hq
    · rw [searching_take hj hk, firstIn_set hnone P v]
      by_cases hany : b.caches.any (fun c => P c.place k) = true
      · rw [if_pos hany]
      · -- The request is then one of the later ones.
        have hq : q ∈ rs' := by
          obtain rfl | hq := List.mem_cons.1 hq
          · exact absurd (List.any_eq_true.2 hP) hany
          · exact hq
        rw [if_neg hany, ih hrest hq]
        rfl

end Again

end CachedCalls
