import CachedCalls.Manager.Step
import CachedCalls.Proofs.Manager.Named

/-!
Managers hand out stable caches (`caches_stable`). Whatever is asked of a manager, and of the
managers that it is composed of, asking it for a name always ends in the same way; a cache that it
gives has the name; and no name is listed twice.
-/

set_option autoImplicit false

namespace CachedCalls

namespace Manager

mutual

/-- No part may make caches whose bounds the library refuses. -/
def buildable : Manager → Bool
  | leaf kind dynamic _ _ => !dynamic || kind.builds
  | composite parts => allBuildable parts

def allBuildable : List Manager → Bool
  | [] => true
  | m :: ms => buildable m && allBuildable ms

end

mutual

theorem prospect_of_buildable (n : String) {m : Manager} (hm : buildable m = true) :
    prospect n m ≠ .refused := by
  match m with
  | leaf kind dynamic allowNull caches =>
    rw [buildable, Bool.or_eq_true, Bool.not_eq_true'] at hm
    rw [prospect]
    split
    · nofun
    · obtain hm | hm := hm
      · rw [hm]
        nofun
      · rw [hm]
        split <;> nofun
  | composite parts => exact prospectFirst_of_allBuildable n hm

theorem prospectFirst_of_allBuildable (n : String) {ms : List Manager}
    (hms : allBuildable ms = true) : prospectFirst n ms ≠ .refused := by
  match ms with
  | [] => nofun
  | m :: ms =>
    rw [allBuildable, Bool.and_eq_true] at hms
    rw [prospectFirst]
    split
    · exact prospectFirst_of_allBuildable n hms.2
    · exact prospect_of_buildable n hms.1

end

variable {σ : Type} [BoundedStore σ]

namespace Remembers

theorem trans {m m' m'' : Manager} (h₁ : Remembers m m') (h₂ : Remembers m' m'') :
    Remembers m m'' :=
  ⟨fun n => (h₂.prospect n).trans (h₁.prospect n), fun n i hi => h₂.holds n i (h₁.holds n i hi)⟩

theorem set {m' : Manager} {ms : List Manager} {j : Nat} (hj : j < ms.length)
    (hm : Remembers ms[j] m') : Remembers (composite ms) (composite (ms.set j m')) := by
  induction ms generalizing j with
  | nil => cases hj
  | cons m ms ih =>
    cases j with
    | zero => exact .cons hm (.refl _)
    | succ j => exact .cons (.refl m) (ih (Nat.lt_of_succ_lt_succ hj) hm)

end Remembers

theorem SoundAll.get {h : Heap σ} {ms : List Manager} (hms : SoundAll h ms) {j : Nat}
    (hj : j < ms.length) : Sound h ms[j] := by
  induction ms generalizing j with
  | nil => cases hj
  | cons m ms ih =>
    cases j with
    | zero => exact hms.1
    | succ j => exact ih hms.2 (Nat.lt_of_succ_lt_succ hj)

theorem SoundAll.set {h : Heap σ} {m' : Manager} {ms : List Manager} (hms : SoundAll h ms)
    (hm : Sound h m') (j : Nat) : SoundAll h (ms.set j m') := by
  induction ms generalizing j with
  | nil => exact hms
  | cons m ms ih =>
    cases j with
    | zero => exact ⟨hm, hms.2⟩
    | succ j => exact ⟨hms.1, ih hms.2 j⟩

/-- What a manager goes through while something is asked of it: it remembers what it had, its caches
    keep their names, and it stays sound. -/
structure Evolves (r r' : Manager × Heap σ) : Prop where
  remembers : Remembers r.1 r'.1
  retains : r.2.Retains r'.2
  sound : Sound r.2 r.1 → Sound r'.2 r'.1

namespace Evolves

variable {r r' r'' : Manager × Heap σ}

theorem refl (r : Manager × Heap σ) : Evolves r r := ⟨.refl r.1, .refl r.2, id⟩

theorem trans (h₁ : Evolves r r') (h₂ : Evolves r' r'') : Evolves r r'' :=
  ⟨h₁.remembers.trans h₂.remembers, h₁.retains.trans h₂.retains, h₂.sound ∘ h₁.sound⟩

theorem put {m : Manager} {h : Heap σ} {i : Nat} {c d : Cache σ} (hc : h[i]? = some c)
    (hname : Backend.name d = Backend.name c) : Evolves (m, h) (m, h.set i d) :=
  have hset := Heap.Retains.set hc hname
  ⟨.refl m, hset, fun hm => hm.retained hset⟩

end Evolves

variable [DocumentedStore σ]

theorem Evolves.find (n : String) (r : Manager × Heap σ) :
    Evolves r (Manager.find n r.1 r.2).2 where
  remembers := by
    have hasked := asked n r.1 r.2
    generalize Manager.find n r.1 r.2 = x at hasked
    cases hasked with
    | nothing | refused => exact .refl r.1
    | offered _ _ hrem => exact hrem
  retains := find_retains n r.1 r.2
  sound := Sound.find n

theorem Step.run_evolves (isMap : Bool) (s : Step) (m : Manager) (h : Heap σ) :
    Evolves (m, h) (s.run isMap m h).2 := by
  cases s with
  | get n =>
    have hfind := Evolves.find n (m, h)
    unfold run
    simp only
    split
    · split <;> exact hfind
    all_goals exact hfind
  | names => exact .refl (m, h)
  | isDynamic => exact .refl (m, h)
  | known n =>
    unfold run
    simp only
    split <;> exact .refl (m, h)
  | same a b =>
    have hfind := (Evolves.find a (m, h)).trans (.find b _)
    unfold run
    simp only
    split <;> exact hfind
  | on n steps =>
    have hfind := Evolves.find n (m, h)
    rcases hr : Manager.find n m h with ⟨_ | _ | _, m', h'⟩ <;> rw [hr] at hfind <;>
      simp only [run, hr]
    · split
      · next c hc =>
        exact hfind.trans (.put hc (Cache.Step.runAll_keeps Cache.keeps_name steps c))
      · exact hfind
    · exact hfind
    · exact hfind

/-- What is asked of a manager somewhere in the tree, the place being told by the numbers of the
    parts on the way to it. -/
structure Visit where
  place : List Nat
  step : Step

def visitAt (isMap : Bool) (s : Step) : List Nat → Manager × Heap σ → Manager × Heap σ
  | [], (m, h) => (s.run isMap m h).2
  | i :: p, (composite parts, h) =>
    match parts[i]? with
    | some m =>
      let (m, h) := visitAt isMap s p (m, h)
      (composite (parts.set i m), h)
    | none => (composite parts, h)
  | _ :: _, (leaf kind dynamic allowNull caches, h) => (leaf kind dynamic allowNull caches, h)

def visitAll (isMap : Bool) (vs : List Visit) (r : Manager × Heap σ) : Manager × Heap σ :=
  vs.foldl (fun r v => visitAt isMap v.step v.place r) r

theorem visitAt_evolves (isMap : Bool) (s : Step) (p : List Nat) (r : Manager × Heap σ) :
    Evolves r (visitAt isMap s p r) := by
  induction p generalizing r with
  | nil => exact s.run_evolves isMap r.1 r.2
  | cons i p ih =>
    obtain ⟨m | parts, h⟩ := r
    · exact .refl _
    · rw [visitAt]
      cases hi : parts[i]? with
      | none => exact .refl _
      | some m =>
        obtain ⟨hlt, rfl⟩ := List.getElem?_eq_some_iff.1 hi
        obtain ⟨hrem, hretains, hsound⟩ := ih (parts[i], h)
        exact ⟨.set hlt hrem, hretains, fun hparts : SoundAll h parts =>
          (hparts.retained hretains).set (hsound (hparts.get hlt)) i⟩

theorem visitAll_evolves (isMap : Bool) (vs : List Visit) (r : Manager × Heap σ) :
    Evolves r (visitAll isMap vs r) := by
  unfold visitAll
  induction vs generalizing r with
  | nil => exact .refl r
  | cons v vs ih => exact (visitAt_evolves isMap v.step v.place r).trans (ih _)

theorem Evolves.find_again {n : String} {r r' : Manager × Heap σ}
    (h : Evolves (Manager.find n r.1 r.2).2 r') :
    (Manager.find n r'.1 r'.2).1 = (Manager.find n r.1 r.2).1 := by
  have hsame := ((Evolves.find n r).trans h).remembers.prospect n
  have hasked := asked n r.1 r.2
  have hagain := asked n r'.1 r'.2
  generalize Manager.find n r.1 r.2 = x at h hasked ⊢
  generalize Manager.find n r'.1 r'.2 = y at hagain ⊢
  cases hasked with
  | nothing hp =>
    rw [hp] at hsame
    cases hagain with
    | nothing => rfl
    | refused hp' | offered hp' => cases hsame.symm.trans hp'
  | refused hp =>
    rw [hp] at hsame
    cases hagain with
    | refused => rfl
    | nothing hp' | offered hp' => cases hsame.symm.trans hp'
  | @offered i _ _ hp hheld =>
    rw [hp] at hsame
    cases hagain with
    | nothing hp' | refused hp' => cases hsame.symm.trans hp'
    | offered _ hheld' hrem =>
      have hi := hrem.holds n i (h.remembers.holds n i hheld)
      exact congrArg Finding.cache (Option.some.inj (hheld'.symm.trans hi))

theorem Sound.found {n : String} {m : Manager} {h : Heap σ} (hm : Sound h m) {i : Nat}
    (hi : (Manager.find n m h).1 = .cache i) :
    (Manager.find n m h).2.2.name? i = some n ∧ holds? n (Manager.find n m h).2.1 = some i := by
  have hafter := hm.find n
  have hasked := asked n m h
  generalize Manager.find n m h = x at hi hafter hasked ⊢
  cases hasked with
  | nothing | refused => cases hi
  | offered _ hheld _ =>
    cases hi
    exact ⟨(hafter.held hheld).1, hheld⟩

theorem find_of_mem_names {n : String} {m : Manager} (hn : n ∈ names m) (h : Heap σ) :
    (∃ i, (Manager.find n m h).1 = .cache i) ∨
      (Manager.find n m h).1 = .refused ∧ prospect n m = .refused := by
  have hasked := asked n m h
  generalize Manager.find n m h = x at hasked ⊢
  cases hasked with
  | nothing hp => exact absurd hp (prospect_of_mem_names hn)
  | refused hp => exact .inr ⟨rfl, hp⟩
  | offered => exact .inl ⟨_, rfl⟩

/-- For any tree of managers that can be built, after anything that may have been asked of it before:
    how asking for a name ends once is how it ends whenever it is asked for the name `later`. A cache
    that is given has the name, then and later, and the name is listed from then on. Of every name that
    is listed there is a cache, unless the library refuses to build one in a part before it; and no
    name is listed twice. -/
theorem caches_stable {b : Blueprint} {h : Heap σ} {r₀ : Manager × Heap σ}
    (hbuilt : b.build h = some r₀) (isMap : Bool) (before later : List Visit) (n : String) :
    let r₁ := visitAll isMap before r₀
    let found := find n r₁.1 r₁.2
    let r₂ := visitAll isMap later found.2
    (find n r₂.1 r₂.2).1 = found.1 ∧
      (∀ i, found.1 = .cache i →
        found.2.2.name? i = some n ∧ r₂.2.name? i = some n ∧ n ∈ r₂.1.names) ∧
      (∀ p ∈ r₁.1.names, (∃ i, (find p r₁.1 r₁.2).1 = .cache i) ∨
        (find p r₁.1 r₁.2).1 = .refused ∧ r₀.1.buildable = false) ∧ r₁.1.names.Nodup := by
  intro r₁ found r₂
  have hbefore : Evolves r₀ r₁ := visitAll_evolves isMap before r₀
  have hsound : Sound r₁.2 r₁.1 := hbefore.sound (Blueprint.build_built hbuilt).sound
  have hlater : Evolves found.2 r₂ := visitAll_evolves isMap later found.2
  refine ⟨hlater.find_again, fun i hi => ?_, fun p hp => ?_, hsound.names_nodup⟩
  · obtain ⟨hname, hheld⟩ := hsound.found hi
    have hlisted := (hlater.sound (hsound.find n)).held (hlater.remembers.holds n i hheld)
    exact ⟨hname, hlisted⟩
  · refine (find_of_mem_names hp r₁.2).imp_right fun ⟨hrefused, hprospect⟩ => ⟨hrefused, ?_⟩
    rw [hbefore.remembers.prospect p] at hprospect
    exact Bool.eq_false_iff.2 fun hb => prospect_of_buildable p hb hprospect

def layers : Blueprint :=
  .composite
    [.map (some ["tea"]) [] (some false), .composite [.bounded none true {}] false] true

theorem caches_stable_layers :
    ∃ r₀ : Manager × Heap, layers.build [] = some r₀ ∧
    let r₁ := visitAll false [⟨[1, 0], .get "milk"⟩] r₀
    let found := find "milk" r₁.1 r₁.2
    let r₂ := visitAll false
      [⟨[2], .get "milk"⟩, ⟨[], .on "tea" [.put (.plain .null) (.int 3)]⟩] found.2
    found.1 = .cache 2 ∧ (find "milk" r₂.1 r₂.2).1 = .cache 2 ∧ r₂.2.name? 2 = some "milk" ∧
      "tea" ∈ r₁.1.names ∧ ∃ i, (find "tea" r₁.1 r₁.2).1 = .cache i := by
  refine ⟨_, rfl, ?_⟩
  intro r₁ found r₂
  have hfound : found.1 = .cache 2 := rfl
  have htea : "tea" ∈ r₁.1.names := List.mem_cons_self
  obtain ⟨hagain, hname, hlisted, -⟩ := caches_stable (b := layers)
    (h := ([] : Heap)) rfl false [⟨[1, 0], .get "milk"⟩]
    [⟨[2], .get "milk"⟩, ⟨[], .on "tea" [.put (.plain .null) (.int 3)]⟩]
    "milk"
  obtain htea' | ⟨-, hno⟩ := hlisted "tea" htea
  · exact ⟨hfound, hagain.trans hfound, (hname 2 hfound).2.1, htea, htea'⟩
  · cases hno

def withheld : Blueprint :=
  .composite [.configured { backend := "moka", bounded := { timeToLive := longestLife + 1 } },
    .map (some ["tea"]) [] none] false

/-- The name of the map is listed, but the part before it is refused a cache of the name. -/
theorem withheld_refused :
    ∃ r₀ : Manager × Heap, withheld.build [] = some r₀ ∧ "tea" ∈ r₀.1.names ∧
      ¬ ∃ i, (find "tea" r₀.1 r₀.2).1 = .cache i := by
  refine ⟨_, rfl, List.mem_cons_self, ?_⟩
  rintro ⟨i, hi⟩
  cases hi

end Manager

end CachedCalls
