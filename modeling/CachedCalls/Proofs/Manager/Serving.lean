import CachedCalls.Proofs.Cache.Policy
import CachedCalls.Proofs.Manager.Stable

/-!
Managers of one kind of caches, all of which have one policy for nulls (`Serves`). Such a manager stays
one whatever is asked of it, and it comes to know the names that a cache was found for.
-/

set_option autoImplicit false

namespace CachedCalls

variable {σ : Type} [BoundedStore σ]

theorem Finding.isSome_cache? (f : Finding) : f.cache?.isSome = true ↔ ∃ i, f = .cache i := by
  cases f <;> simp [cache?]

def CacheKind.made (n : String) (allowNull : Bool) : CacheKind → String × String × Option Bool
  | map => ("concurrent_map", n, some allowNull)
  | bounded _ => ("moka", n, some allowNull)
  | none_ => ("noop", n, none)
  | minimal => ("minimal", n, none)

theorem CacheKind.made_fresh {kind : CacheKind} {n : String} {allowNull : Bool} {c : Cache σ}
    (hc : kind.fresh n allowNull = some c) : c.made = kind.made n allowNull := by
  cases kind with
  | bounded b =>
    obtain ⟨d, hd, rfl⟩ := Option.map_eq_some_iff.1 hc
    obtain ⟨s, -, rfl⟩ := Option.map_eq_some_iff.1 hd
    rfl
  | _ =>
    cases hc
    rfl

namespace Heap

def made? (h : Heap σ) (i : Nat) : Option (String × String × Option Bool) := (h[i]?).map Cache.made

theorem made?_append {h : Heap σ} {i : Nat} {x : String × String × Option Bool}
    (hi : h.made? i = some x) (cs : Heap σ) : (h ++ cs).made? i = some x := by
  obtain ⟨c, hc, rfl⟩ := Option.map_eq_some_iff.1 hi
  have hlt : i < h.length := (List.getElem?_eq_some_iff.1 hc).1
  unfold made?
  rw [List.getElem?_append_left hlt, hc]
  rfl

theorem made?_new (h : Heap σ) (c : Cache σ) : (h ++ [c]).made? h.length = some c.made := by
  unfold made?
  rw [List.getElem?_concat_length]
  rfl

theorem made?_set {h : Heap σ} {i : Nat} {c d : Cache σ} (hc : h[i]? = some c)
    (hd : d.made = c.made) (j : Nat) : Heap.made? (h.set i d) j = h.made? j := by
  have hlt : i < h.length := (List.getElem?_eq_some_iff.1 hc).1
  unfold made?
  by_cases hij : i = j
  · cases hij
    rw [List.getElem?_set_self hlt, hc, Option.map_some, hd]
    rfl
  · rw [List.getElem?_set_ne hij]

end Heap

namespace Manager

/-- The table knows just these names, and has for each a cache that was made for it. -/
structure Stocked (kind : CacheKind) (allowNull : Bool) (known : String → Prop) (h : Heap σ)
    (caches : List (String × Nat)) : Prop where
  known : ∀ n, (caches.lookup n).isSome = true ↔ known n
  made : ∀ n i, caches.lookup n = some i → h.made? i = some (kind.made n allowNull)

/-- A manager of caches that are all made in one way, and which knows just these names so far. -/
def Serves (kind : CacheKind) (dynamic allowNull : Bool) (known : String → Prop)
    (r : Manager × Heap σ) : Prop :=
  ∃ caches, r.1 = leaf kind dynamic allowNull caches ∧ Stocked kind allowNull known r.2 caches

section Tables

variable {kind : CacheKind} {allowNull : Bool} {known : String → Prop} {h h' : Heap σ}
  {caches caches' : List (String × Nat)} {ns : List String}

theorem addAll_cons (n : String) (ns : List String) :
    addAll kind allowNull (n :: ns) caches h =
      (kind.fresh n allowNull).bind fun c =>
        addAll kind allowNull ns (fileUnder n h.length caches) (h ++ [c]) := by
  unfold addAll add
  rw [List.foldlM_cons]
  cases (kind.fresh n allowNull : Option (Cache σ)) <;> rfl

theorem addAll_made (hadd : addAll kind allowNull ns caches h = some (caches', h')) {i : Nat}
    {x : String × String × Option Bool} (hi : h.made? i = some x) : h'.made? i = some x := by
  induction ns generalizing caches h with
  | nil =>
    cases hadd
    exact hi
  | cons n ns ih =>
    rw [addAll_cons] at hadd
    obtain ⟨c, -, hrest⟩ := Option.bind_eq_some_iff.1 hadd
    exact ih hrest (Heap.made?_append hi [c])

theorem lookup_addAll (hadd : addAll kind allowNull ns caches h = some (caches', h')) (p : String) :
    (p ∈ ns → ∃ i, caches'.lookup p = some i ∧ h'.made? i = some (kind.made p allowNull)) ∧
      (p ∉ ns → caches'.lookup p = caches.lookup p) := by
  induction ns generalizing caches h with
  | nil =>
    cases hadd
    exact ⟨nofun, fun _ => rfl⟩
  | cons n ns ih =>
    rw [addAll_cons] at hadd
    obtain ⟨c, hc, hrest⟩ := Option.bind_eq_some_iff.1 hadd
    obtain ⟨hin, hout⟩ := ih hrest
    have hlookup := lookup_fileUnder n h.length caches p
    refine ⟨fun hp => ?_, fun hp => ?_⟩
    · by_cases hns : p ∈ ns
      · exact hin hns
      · obtain rfl | hp := List.mem_cons.1 hp
        · rw [if_pos rfl] at hlookup
          have hmade := h.made?_new c
          rw [CacheKind.made_fresh hc] at hmade
          exact ⟨h.length, (hout hns).trans hlookup, addAll_made hrest hmade⟩
        · exact absurd hp hns
    · obtain ⟨hne, hns⟩ := not_or.1 (mt List.mem_cons.2 hp)
      rw [if_neg hne] at hlookup
      exact (hout hns).trans hlookup

theorem Stocked.refill {before : Bool} (hs : Stocked kind before known h caches)
    (hadd : Manager.addAll kind allowNull ns caches h = some (caches', h'))
    (hleft : ∀ p i, p ∉ ns → caches.lookup p = some i → h.made? i = some (kind.made p allowNull)) :
    Stocked kind allowNull (fun p => known p ∨ p ∈ ns) h' caches' := by
  have hadded := lookup_addAll hadd
  refine ⟨fun p => ?_, fun p i hi => ?_⟩ <;> by_cases hp : p ∈ ns
  · obtain ⟨i, hi, -⟩ := (hadded p).1 hp
    simp [hi, hp]
  · rw [(hadded p).2 hp, hs.known p]
    simp [hp]
  · obtain ⟨j, hj, hmade⟩ := (hadded p).1 hp
    cases hi.symm.trans hj
    exact hmade
  · rw [(hadded p).2 hp] at hi
    exact addAll_made hadd (hleft p i hp hi)

theorem Stocked.addAll (hs : Stocked kind allowNull known h caches)
    (hadd : Manager.addAll kind allowNull ns caches h = some (caches', h')) :
    Stocked kind allowNull (fun p => known p ∨ p ∈ ns) h' caches' :=
  hs.refill hadd fun p i _ hi => hs.made p i hi

theorem Stocked.renew {before : Bool} (hs : Stocked kind before known h caches)
    (hadd : Manager.addAll kind allowNull (caches.map (·.1)) caches h = some (caches', h')) :
    Stocked kind allowNull known h' caches' := by
  have hnames {p : String} {i : Nat} (hi : caches.lookup p = some i) : p ∈ caches.map (·.1) :=
    List.mem_map_of_mem (mem_of_lookup hi)
  obtain ⟨hknown, hmade⟩ := hs.refill hadd fun p i hp hi => absurd (hnames hi) hp
  refine ⟨fun p => (hknown p).trans ⟨?_, .inl⟩, hmade⟩
  rintro (hp | hp)
  · exact hp
  · exact (hs.known p).1 (lookup_isSome_of_mem hp)

theorem Stocked.file (hs : Stocked kind allowNull known h caches) {n : String} {c : Cache σ}
    (hc : kind.fresh n allowNull = some c) :
    Stocked kind allowNull (fun p => known p ∨ p ∈ [n]) (h ++ [c]) (fileUnder n h.length caches) :=
  hs.addAll (by rw [addAll_cons, hc]; rfl)

theorem Stocked.nil (kind : CacheKind) (allowNull : Bool) (h : Heap σ) :
    Stocked kind allowNull (fun _ => False) h [] := ⟨fun _ => ⟨nofun, False.elim⟩, nofun⟩

variable [DocumentedStore σ]

theorem addAll_of_builds (hb : kind.builds = true) (allowNull : Bool) (ns : List String)
    (caches : List (String × Nat)) (h : Heap σ) :
    ∃ caches' h', addAll kind allowNull ns caches h = some (caches', h') := by
  induction ns generalizing caches h with
  | nil => exact ⟨caches, h, rfl⟩
  | cons n ns ih =>
    obtain ⟨c, hc⟩ := Option.isSome_iff_exists.1
      ((CacheKind.isSome_fresh σ kind n allowNull).trans hb)
    rw [addAll_cons, hc]
    exact ih _ _

theorem addAll_of_refused (hb : kind.builds = false) (hns : ns ≠ []) :
    addAll kind allowNull ns caches h = none := by
  obtain ⟨n, ns, rfl⟩ := List.exists_cons_of_ne_nil hns
  have hc := (CacheKind.isSome_fresh σ kind n allowNull).trans hb
  rw [addAll_cons, Option.not_isSome_iff_eq_none.1 (Bool.eq_false_iff.1 hc)]
  rfl

end Tables

namespace Serves

variable {kind : CacheKind} {dynamic allowNull : Bool} {known known' : String → Prop}
  {r : Manager × Heap σ}

theorem congr (hr : Serves kind dynamic allowNull known r) (h : ∀ p, known p ↔ known' p) :
    Serves kind dynamic allowNull known' r := by
  obtain ⟨caches, hm, hknown, hmade⟩ := hr
  exact ⟨caches, hm, fun n => (hknown n).trans (h n), hmade⟩

theorem dynamic_new (kind : CacheKind) (allowNull : Bool) (h : Heap σ) :
    Serves kind true allowNull (fun _ => False) (Manager.dynamic kind allowNull, h) :=
  ⟨[], rfl, .nil kind allowNull h⟩

theorem put {m : Manager} {h : Heap σ} {i : Nat} {c d : Cache σ}
    (hr : Serves kind dynamic allowNull known (m, h)) (hc : h[i]? = some c)
    (hd : d.made = c.made) : Serves kind dynamic allowNull known (m, h.set i d) := by
  obtain ⟨caches, hm, hknown, hmade⟩ := hr
  exact ⟨caches, hm, hknown, fun n j hj => (Heap.made?_set hc hd j).trans (hmade n j hj)⟩

theorem mem_names (hr : Serves kind dynamic allowNull known r) (p : String) :
    p ∈ r.1.names ↔ known p := by
  obtain ⟨caches, hm, hs⟩ := hr
  rw [hm, names, ← hs.known p]
  refine ⟨lookup_isSome_of_mem, fun hp => ?_⟩
  obtain ⟨i, hi⟩ := Option.isSome_iff_exists.1 hp
  exact List.mem_map_of_mem (mem_of_lookup hi)

theorem names_sorted (hr : Serves kind dynamic allowNull known r) (hsound : Sound r.2 r.1) :
    r.1.names.Pairwise (· < ·) := by
  obtain ⟨m, h⟩ := r
  obtain ⟨caches, hm, -⟩ := hr
  obtain rfl : m = leaf kind dynamic allowNull caches := hm
  exact List.pairwise_map.2 (Heap.Tabled.sorted hsound)

variable [DocumentedStore σ]

theorem static (hb : kind.builds = true) (ns : List String) (h : Heap σ) :
    ∃ r, Manager.static kind allowNull ns h = some r ∧ Serves kind false allowNull (· ∈ ns) r := by
  obtain ⟨caches, h', hadd⟩ := addAll_of_builds hb allowNull ns [] h
  refine ⟨(leaf kind false allowNull caches, h'), ?_, ?_⟩
  · rw [Manager.static, hadd]
    rfl
  · exact congr ⟨caches, rfl, (Stocked.nil kind allowNull h).addAll hadd⟩ fun p => by simp

theorem setAllowNull (hr : Serves kind dynamic allowNull known r) (hb : kind.builds = true)
    (allow : Bool) :
    ∃ r', r.1.setAllowNull allow r.2 = some r' ∧ Serves kind dynamic allow known r' := by
  obtain ⟨m, h⟩ := r
  obtain ⟨caches, hm, hs⟩ := hr
  obtain rfl : m = leaf kind dynamic allowNull caches := hm
  rw [Manager.setAllowNull]
  split
  · next hsame =>
    subst hsame
    exact ⟨_, rfl, caches, rfl, hs⟩
  · obtain ⟨caches', h', hadd⟩ := addAll_of_builds hb allow (caches.map (·.1)) caches h
    rw [hadd]
    exact ⟨_, rfl, caches', rfl, hs.renew hadd⟩

theorem find (hr : Serves kind dynamic allowNull known r) (n : String) :
    let found := Manager.find n r.1 r.2
    Serves kind dynamic allowNull (fun p => known p ∨ (dynamic && kind.builds) = true ∧ p ∈ [n])
        found.2 ∧
      ((∃ i, found.1 = .cache i) ↔ (dynamic && kind.builds) = true ∨ known n) ∧
      (found.1 = .refused ↔ dynamic = true ∧ kind.builds = false ∧ ¬ known n) ∧
      ∀ i, found.1 = .cache i → found.2.2.made? i = some (kind.made n allowNull) := by
  intro found
  obtain ⟨m, h⟩ := r
  obtain ⟨caches, hm, hs⟩ := hr
  obtain rfl : m = leaf kind dynamic allowNull caches := hm
  have hn := hs.known n
  have hbuilds := CacheKind.isSome_fresh σ kind n allowNull
  have hfinds : Finds n kind dynamic allowNull caches h found :=
    find_leaf n kind dynamic allowNull caches h
  clear_value found
  cases hfinds with
  | @known i hl =>
    have hknown : known n := hn.1 (hl ▸ rfl)
    refine ⟨congr ⟨caches, rfl, hs⟩ fun p => ⟨.inl, ?_⟩, by simp [hknown], by simp [hknown],
      fun j hj => ?_⟩
    · rintro (hp | ⟨-, hp⟩)
      · exact hp
      · exact List.mem_singleton.1 hp ▸ hknown
    · cases hj
      exact hs.made n i hl
  | unknown hl hd =>
    have hknown : ¬ known n := fun h => by simpa [hl] using hn.2 h
    exact ⟨congr ⟨caches, rfl, hs⟩ fun p => by simp [hd], by simp [hknown, hd], by simp [hd], nofun⟩
  | refused hl hd hc =>
    have hknown : ¬ known n := fun h => by simpa [hl] using hn.2 h
    rw [hc] at hbuilds
    exact ⟨congr ⟨caches, rfl, hs⟩ fun p => by simp [← hbuilds], by simp [hknown, ← hbuilds],
      by simp [hknown, hd, ← hbuilds], nofun⟩
  | made hl hd hc =>
    have hmade := h.made?_new ‹_›
    rw [CacheKind.made_fresh hc] at hmade
    rw [hc] at hbuilds
    refine ⟨congr ⟨_, rfl, hs.file hc⟩ fun p => by simp [hd, ← hbuilds], by simp [hd, ← hbuilds],
      by simp [← hbuilds], fun j hj => ?_⟩
    cases hj
    exact hmade

theorem findAll (hr : Serves kind dynamic allowNull known r) (hb : kind.builds = true)
    (ns : List String) :
    ∃ r', Manager.findAll ns r.1 r.2 = some r' ∧
      Serves kind dynamic allowNull (fun p => known p ∨ dynamic = true ∧ p ∈ ns) r' := by
  induction ns generalizing known r with
  | nil => exact ⟨r, rfl, hr.congr fun p => by simp⟩
  | cons n ns ih =>
    obtain ⟨hserves, -, hrefused, -⟩ := hr.find n
    obtain ⟨r', hfound, hserves'⟩ := ih hserves
    refine ⟨r', ?_, hserves'.congr fun p => by simp [hb, and_or_left, or_assoc]⟩
    unfold Manager.findAll at hfound ⊢
    rw [List.foldlM_cons]
    simp only
    split
    · next hx =>
      rw [(hrefused.1 (congrArg Prod.fst hx)).2.1] at hb
      cases hb
    · next f r₁ _ hx =>
      rw [hx] at hfound
      exact hfound

end Serves

def Step.asks : Step → List String
  | get n => [n]
  | same a b => [a, b]
  | on n _ => [n]
  | _ => []

def Step.after (isMap : Bool) (ss : List Step) (r : Manager × Heap σ) : Manager × Heap σ :=
  ss.foldl (fun r s => (s.run isMap r.1 r.2).2) r

/-- The names that a cache was found for. -/
def Step.found (isMap : Bool) : List Step → Manager × Heap σ → List String
  | [], _ => []
  | s :: ss, r =>
    s.asks.filter (fun n => (find n r.1 r.2).1.cache?.isSome) ++
      found isMap ss (s.run isMap r.1 r.2).2

variable [DocumentedStore σ]

theorem Step.after_evolves (isMap : Bool) (ss : List Step) (r : Manager × Heap σ) :
    Evolves r (after isMap ss r) := by
  unfold after
  induction ss generalizing r with
  | nil => exact .refl r
  | cons s ss ih => exact (s.run_evolves isMap r.1 r.2).trans (ih _)

namespace Serves

variable {kind : CacheKind} {dynamic allowNull : Bool} {known : String → Prop}
  {r : Manager × Heap σ}

theorem run (hr : Serves kind dynamic allowNull known r) (isMap : Bool) (s : Step) :
    Serves kind dynamic allowNull (fun p => known p ∨ (dynamic && kind.builds) = true ∧ p ∈ s.asks)
      (s.run isMap r.1 r.2).2 := by
  have hsame : Serves kind dynamic allowNull
      (fun p => known p ∨ (dynamic && kind.builds) = true ∧ p ∈ []) r := hr.congr fun p => by simp
  cases s with
  | get n =>
    have hfind := (hr.find n).1
    unfold Step.run
    simp only
    split
    · split <;> exact hfind
    all_goals exact hfind
  | names => exact hsame
  | isDynamic => exact hsame
  | known n =>
    unfold Step.run
    simp only
    split <;> exact hsame
  | same a b =>
    have hfind : Serves kind dynamic allowNull
        (fun p => known p ∨ (dynamic && kind.builds) = true ∧ p ∈ [a, b]) _ :=
      ((hr.find a).1.find b).1.congr fun p => by simp [and_or_left, or_assoc]
    unfold Step.run
    simp only
    split <;> exact hfind
  | on n steps =>
    have hfind := (hr.find n).1
    rcases hn : Manager.find n r.1 r.2 with ⟨_ | _ | _, m, h⟩ <;> rw [hn] at hfind <;>
      simp only [Step.run, hn]
    · split
      · next c hc => exact hfind.put hc (Cache.Step.runAll_keeps Cache.keeps_made steps c)
      · exact hfind
    · exact hfind
    · exact hfind

theorem after (hr : Serves kind dynamic allowNull known r) (isMap : Bool) (ss : List Step) :
    Serves kind dynamic allowNull (fun p => known p ∨ p ∈ Step.found isMap ss r)
      (Step.after isMap ss r) := by
  induction ss generalizing known r with
  | nil => exact hr.congr fun p => by simp [Step.found]
  | cons s ss ih =>
    refine (ih (hr.run isMap s)).congr fun p => ?_
    simp only [Step.found, List.mem_append, List.mem_filter, Finding.isSome_cache?,
      (hr.find p).2.1]
    by_cases hp : known p <;> simp [hp, and_comm]

theorem of_mem_found {n : String} {isMap : Bool} {ss : List Step}
    (hr : Serves kind dynamic allowNull known r) (hn : n ∈ Step.found isMap ss r) :
    (dynamic && kind.builds) = true ∨ known n := by
  induction ss generalizing known r with
  | nil => cases hn
  | cons s ss ih =>
    obtain hn | hn := List.mem_append.1 hn
    · exact (hr.find n).2.1.1 ((Finding.isSome_cache? _).1 (List.mem_filter.1 hn).2)
    · obtain hd | hn | ⟨hd, -⟩ := ih (hr.run isMap s) hn
      · exact .inl hd
      · exact .inr hn
      · exact .inl hd

theorem find_after (hr : Serves kind dynamic allowNull known r) (hb : kind.builds = true)
    (isMap : Bool) (ss : List Step) (n : String) :
    let r' := Step.after isMap ss r
    (Manager.find n r'.1 r'.2).1 ≠ .refused ∧
      ((∃ i, (Manager.find n r'.1 r'.2).1 = .cache i) ↔ dynamic = true ∨ known n) := by
  intro r'
  obtain ⟨-, hfound, hrefused, -⟩ := (hr.after isMap ss).find n
  rw [hb, Bool.and_true] at hfound
  refine ⟨fun hno => ?_, hfound.trans ⟨?_, fun hn => hn.imp_right .inl⟩⟩
  · have hno' := (hrefused.1 hno).2.1
    rw [hb] at hno'
    cases hno'
  · rintro (hd | hn | hn)
    · exact .inl hd
    · exact .inr hn
    · simpa only [hb, Bool.and_true] using hr.of_mem_found hn

end Serves

end Manager

end CachedCalls
