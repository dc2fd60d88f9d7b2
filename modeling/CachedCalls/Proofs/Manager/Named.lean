import CachedCalls.Manager.Blueprint
import CachedCalls.Proofs.Cache.Kept
import CachedCalls.Proofs.Manager.Find
import CachedCalls.Proofs.Manager.Names

set_option autoImplicit false

namespace CachedCalls

variable {σ : Type} [BoundedStore σ]

namespace Heap

def name? (h : Heap σ) (i : Nat) : Option String := (h[i]?).map Backend.name

/-- Every cache is still in its place under its name. -/
def Retains (h h' : Heap σ) : Prop := ∀ i n, h.name? i = some n → h'.name? i = some n

namespace Retains

theorem refl (h : Heap σ) : Retains h h := fun _ _ hi => hi

theorem trans {h h' h'' : Heap σ} (h₁ : Retains h h') (h₂ : Retains h' h'') : Retains h h'' :=
  fun i n hi => h₂ i n (h₁ i n hi)

theorem append (h cs : Heap σ) : Retains h (h ++ cs) := by
  intro i n hi
  obtain ⟨c, hc, rfl⟩ := Option.map_eq_some_iff.1 hi
  have hlt : i < h.length := (List.getElem?_eq_some_iff.1 hc).1
  unfold name?
  rw [List.getElem?_append_left hlt, hc]
  rfl

theorem set {h : Heap σ} {i : Nat} {c d : Cache σ} (hc : h[i]? = some c)
    (hname : Backend.name d = Backend.name c) : Retains h (h.set i d) := by
  intro j n hj
  obtain ⟨e, he, rfl⟩ := Option.map_eq_some_iff.1 hj
  have hlt : j < h.length := (List.getElem?_eq_some_iff.1 he).1
  unfold name?
  by_cases hij : i = j
  · cases hij
    cases hc.symm.trans he
    rw [List.getElem?_set_self hlt, Option.map_some, hname]
  · rw [List.getElem?_set_ne hij, he]
    rfl

end Retains

structure Tabled (h : Heap σ) (caches : List (String × Nat)) : Prop where
  sorted : caches.Pairwise fun d e => d.1 < e.1
  named : ∀ e ∈ caches, h.name? e.2 = some e.1

namespace Tabled

variable {h h' : Heap σ} {caches caches' : List (String × Nat)}

theorem nil (h : Heap σ) : Tabled h [] := ⟨.nil, nofun⟩

theorem retained (ht : Tabled h caches) (hr : Retains h h') : Tabled h' caches :=
  ⟨ht.sorted, fun e he => hr e.2 e.1 (ht.named e he)⟩

theorem file (ht : Tabled h caches) {n : String} {c : Cache σ} (hc : Backend.name c = n) :
    Tabled (h ++ [c]) (fileUnder n h.length caches) := by
  refine ⟨fileUnder_sorted n h.length ht.sorted, fun e he => ?_⟩
  obtain rfl | he := mem_fileUnder he
  · unfold name?
    rw [List.getElem?_concat_length, Option.map_some, hc]
  · exact Retains.append h _ _ _ (ht.named e he)

theorem add (ht : Tabled h caches) {kind : CacheKind} {allowNull : Bool} {n : String}
    (hadd : Manager.add kind allowNull n caches h = some (caches', h')) :
    Tabled h' caches' ∧ Retains h h' := by
  obtain ⟨c, hc, hadd⟩ := Option.map_eq_some_iff.1 hadd
  cases hadd
  exact ⟨ht.file (CacheKind.name_fresh hc), .append h [c]⟩

theorem addAll (ht : Tabled h caches) {kind : CacheKind} {allowNull : Bool} {ns : List String}
    (hadd : Manager.addAll kind allowNull ns caches h = some (caches', h')) :
    Tabled h' caches' ∧ Retains h h' := by
  induction ns generalizing caches h with
  | nil =>
    cases hadd
    exact ⟨ht, .refl _⟩
  | cons n ns ih =>
    obtain ⟨⟨caches₁, h₁⟩, hone, hrest⟩ := Option.bind_eq_some_iff.1 hadd
    obtain ⟨htabled, hretains⟩ := ht.add hone
    obtain ⟨htabled', hretains'⟩ := ih htabled hrest
    exact ⟨htabled', hretains.trans hretains'⟩

end Tabled

end Heap

namespace Manager

mutual

def Sound (h : Heap σ) : Manager → Prop
  | leaf _ _ _ caches => h.Tabled caches
  | composite parts => SoundAll h parts

def SoundAll (h : Heap σ) : List Manager → Prop
  | [] => True
  | m :: ms => Sound h m ∧ SoundAll h ms

end

variable {h h' : Heap σ}

mutual

theorem Sound.retained {m : Manager} (hm : Sound h m) (hr : h.Retains h') : Sound h' m := by
  match m with
  | leaf _ _ _ _ => exact Heap.Tabled.retained hm hr
  | composite parts =>
    have hparts : SoundAll h parts := hm
    exact hparts.retained hr

theorem SoundAll.retained {ms : List Manager} (hms : SoundAll h ms) (hr : h.Retains h') :
    SoundAll h' ms := by
  match ms with
  | [] => trivial
  | m :: ms => exact ⟨Sound.retained hms.1 hr, SoundAll.retained hms.2 hr⟩

end

theorem find_retains (n : String) (m : Manager) (h : Heap σ) : h.Retains (find n m h).2.2 := by
  obtain ⟨f, m', cs, hfind⟩ := @find_of_length σ _ n m h.length
  rw [hfind h rfl]
  exact .append h cs

theorem findFirst_retains (n : String) (ms : List Manager) (h : Heap σ) :
    h.Retains (findFirst n ms h).2.2 := by
  obtain ⟨f, ms', cs, hfirst⟩ := @findFirst_of_length σ _ n ms h.length
  rw [hfirst h rfl]
  exact .append h cs

mutual

theorem Sound.find (n : String) {m : Manager} {h : Heap σ} (hm : Sound h m) :
    Sound (find n m h).2.2 (find n m h).2.1 := by
  match m with
  | leaf kind dynamic allowNull caches =>
    have hfinds := find_leaf n kind dynamic allowNull caches h
    generalize Manager.find n (leaf kind dynamic allowNull caches) h = x at hfinds
    cases hfinds with
    | made _ _ hc => exact Heap.Tabled.file hm (CacheKind.name_fresh hc)
    | _ => exact hm
  | composite parts =>
    have hparts : SoundAll h parts := hm
    simp only [Manager.find]
    exact hparts.findFirst n

theorem SoundAll.findFirst (n : String) {ms : List Manager} {h : Heap σ} (hms : SoundAll h ms) :
    SoundAll (findFirst n ms h).2.2 (findFirst n ms h).2.1 := by
  match ms with
  | [] => trivial
  | m :: ms =>
    have hm := Sound.find n hms.1
    have hr := find_retains n m h
    rw [Manager.findFirst]
    rcases hfind : Manager.find n m h with ⟨_ | _ | _, m', h₁⟩ <;> rw [hfind] at hm hr
    · exact ⟨hm, hms.2.retained hr⟩
    · have hrest := SoundAll.findFirst n (hms.2.retained hr)
      exact ⟨hm.retained (findFirst_retains n ms h₁), hrest⟩
    · exact ⟨hm, hms.2.retained hr⟩

end

mutual

theorem Sound.held {n : String} {i : Nat} {m : Manager} (hm : Sound h m)
    (hi : holds? n m = some i) : h.name? i = some n ∧ n ∈ names m := by
  match m with
  | leaf _ _ _ caches =>
    have he := mem_of_lookup hi
    exact ⟨Heap.Tabled.named hm _ he, List.mem_map_of_mem he⟩
  | composite parts =>
    have hparts : SoundAll h parts := hm
    obtain ⟨hname, hmem⟩ := hparts.held hi
    exact ⟨hname, mem_distinct.2 hmem⟩

theorem SoundAll.held {n : String} {i : Nat} {ms : List Manager} (hms : SoundAll h ms)
    (hi : firstHeld? n ms = some i) : h.name? i = some n ∧ n ∈ namesAll ms := by
  match ms with
  | [] => cases hi
  | m :: ms =>
    rw [firstHeld?] at hi
    split at hi
    · obtain ⟨hname, hmem⟩ := SoundAll.held hms.2 hi
      exact ⟨hname, List.mem_append_right _ hmem⟩
    · obtain ⟨hname, hmem⟩ := Sound.held hms.1 hi
      exact ⟨hname, List.mem_append_left _ hmem⟩

end

mutual

/-- A part before the one that has the name may refuse to make a cache for it. -/
theorem prospect_of_mem_names {n : String} {m : Manager} (hn : n ∈ names m) :
    prospect n m ≠ .nothing := by
  match m with
  | leaf _ _ _ caches =>
    rw [prospect, if_pos (lookup_isSome_of_mem hn)]
    nofun
  | composite parts => exact prospectFirst_of_mem_namesAll (mem_distinct.1 hn)

theorem prospectFirst_of_mem_namesAll {n : String} {ms : List Manager} (hn : n ∈ namesAll ms) :
    prospectFirst n ms ≠ .nothing := by
  match ms with
  | [] => cases hn
  | m :: ms =>
    rw [prospectFirst]
    split
    · next hm =>
      obtain hn | hn := List.mem_append.1 hn
      · exact absurd hm (prospect_of_mem_names hn)
      · exact prospectFirst_of_mem_namesAll hn
    · next hm => exact hm

end

theorem Sound.names_nodup {m : Manager} (hm : Sound h m) : (names m).Nodup := by
  cases m with
  | leaf _ _ _ _ => exact CachedCalls.names_nodup (Heap.Tabled.sorted hm)
  | composite parts => exact distinct_nodup (namesAll parts)

structure Built (h : Heap σ) (r : Manager × Heap σ) : Prop where
  sound : Sound r.2 r.1
  retains : h.Retains r.2

theorem static_built {kind : CacheKind} {allowNull : Bool} {ns : List String} {h : Heap σ}
    {r : Manager × Heap σ} (hr : static kind allowNull ns h = some r) : Built h r := by
  obtain ⟨⟨caches, h'⟩, hadd, rfl⟩ := Option.map_eq_some_iff.1 hr
  obtain ⟨htabled, hretains⟩ := (Heap.Tabled.nil h).addAll hadd
  exact ⟨htabled, hretains⟩

theorem dynamic_built (kind : CacheKind) (allowNull : Bool) (h : Heap σ) :
    Built h (dynamic kind allowNull, h) := ⟨.nil h, .refl h⟩

namespace Built

variable {r r' : Manager × Heap σ}

theorem find (hr : Built h r) (n : String) : Built h (Manager.find n r.1 r.2).2 :=
  ⟨hr.sound.find n, hr.retains.trans (find_retains n r.1 r.2)⟩

theorem findAll (hr : Built h r) {ns : List String}
    (hfound : Manager.findAll ns r.1 r.2 = some r') : Built h r' := by
  induction ns generalizing r with
  | nil =>
    cases hfound
    exact hr
  | cons n ns ih =>
    obtain ⟨r₁, hone, hrest⟩ := Option.bind_eq_some_iff.1 hfound
    refine ih ?_ hrest
    have hfind := hr.find n
    simp only at hone
    split at hone
    · cases hone
    · next f r₂ hn =>
      cases hone
      rw [hn] at hfind
      exact hfind

theorem setAllowNull (hr : Built h r) {allow : Bool}
    (hset : r.1.setAllowNull allow r.2 = some r') : Built h r' := by
  obtain ⟨m, h₁⟩ := r
  cases m with
  | leaf kind dynamic allowNull caches =>
    rw [Manager.setAllowNull] at hset
    split at hset
    · cases hset
      exact hr
    · obtain ⟨⟨caches', h₂⟩, hadd, rfl⟩ := Option.map_eq_some_iff.1 hset
      have htabled : h₁.Tabled caches := hr.sound
      obtain ⟨hadded, hretains⟩ := htabled.addAll hadd
      exact ⟨hadded, hr.retains.trans hretains⟩
  | composite parts =>
    cases hset
    exact hr

theorem fallback {ms : List Manager} {h₁ : Heap σ} (hms : Built h (composite ms, h₁)) :
    Built h (composite (ms ++ [nothing]), h₁) := by
  refine ⟨?_, hms.retains⟩
  have hsound : SoundAll h₁ ms := hms.sound
  change SoundAll h₁ (ms ++ [nothing])
  clear hms
  induction ms with
  | nil => exact ⟨.nil h₁, trivial⟩
  | cons m ms ih => exact ⟨hsound.1, ih hsound.2⟩

end Built

end Manager

variable {h : Heap σ} {r : Manager × Heap σ}

namespace ManagerSettings

variable {s : ManagerSettings}

theorem start_built {kind : CacheKind} {allowNull : Bool} (hr : s.start kind allowNull h = some r) :
    Manager.Built h r := by
  unfold start at hr
  split at hr
  · exact Manager.static_built hr
  · exact (Manager.dynamic_built kind allowNull h).findAll hr

theorem build_built (hr : s.build h = some r) : Manager.Built h r := by
  unfold build at hr
  split at hr
  · obtain ⟨r₁, hstart, hset⟩ := Option.bind_eq_some_iff.1 hr
    exact (start_built hstart).setAllowNull hset
  · exact start_built hr
  · cases hr
    exact Manager.dynamic_built .none_ true h

end ManagerSettings

namespace Blueprint

theorem leaf_built {kind : CacheKind} {allowNull : Bool} {names : Option (List String)}
    (hr : leaf kind allowNull names h = some r) : Manager.Built h r := by
  cases names with
  | some ns => exact Manager.static_built hr
  | none =>
    cases hr
    exact Manager.dynamic_built kind allowNull h

theorem fill_built (hr : Manager.Built h r) (es : List (String × Key × Value)) :
    Manager.Built h (fill r.1 r.2 es) := by
  induction es generalizing r with
  | nil => exact hr
  | cons e es ih =>
    obtain ⟨n, k, v⟩ := e
    have hfound := hr.find n
    rw [fill]
    rcases hfind : r.1.find n r.2 with ⟨_ | _ | _, m, h₁⟩ <;> rw [hfind] at hfound
    · simp only
      split
      · next c hput =>
        obtain ⟨d, hd, hput⟩ := Option.map_eq_some_iff.1 hput
        have hset := Heap.Retains.set hd (Cache.keeps_name.put d k v c hput)
        exact ih (r := (m, h₁.set _ c)) ⟨hfound.sound.retained hset, hfound.retains.trans hset⟩
      · exact ih hfound
    · exact ih hfound
    · exact ih hfound

mutual

theorem build_built {b : Blueprint} {h : Heap σ} {r : Manager × Heap σ} (hr : b.build h = some r) :
    Manager.Built h r := by
  match b with
  | .map names filled allowNull =>
    rw [build] at hr
    obtain ⟨r₁, hleaf, hr⟩ := Option.bind_eq_some_iff.1 hr
    have hfilled := fill_built (leaf_built hleaf) filled
    cases allowNull with
    | none =>
      cases hr
      exact hfilled
    | some b => exact hfilled.setAllowNull hr
  | .bounded names allowNull bounds => exact leaf_built hr
  | .nothing =>
    cases hr
    exact Manager.dynamic_built .none_ true h
  | .composite parts fallback =>
    rw [build] at hr
    obtain ⟨⟨ms, h₁⟩, hall, hr⟩ := Option.bind_eq_some_iff.1 hr
    cases hr
    have hparts := buildAll_built hall
    cases fallback with
    | false => exact hparts
    | true => exact hparts.fallback
  | .configured s => exact ManagerSettings.build_built hr

theorem buildAll_built {bs : List Blueprint} {h h' : Heap σ} {ms : List Manager}
    (hr : buildAll bs h = some (ms, h')) : Manager.Built h (.composite ms, h') := by
  match bs with
  | [] =>
    cases hr
    exact ⟨trivial, .refl h⟩
  | b :: bs =>
    rw [buildAll] at hr
    obtain ⟨⟨m, h₁⟩, hone, hr⟩ := Option.bind_eq_some_iff.1 hr
    obtain ⟨⟨ms', h₂⟩, hrest, hr⟩ := Option.bind_eq_some_iff.1 hr
    cases hr
    obtain ⟨hsound, hretains⟩ := build_built hone
    obtain ⟨hsounds, hretains'⟩ := buildAll_built hrest
    exact ⟨⟨hsound.retained hretains', hsounds⟩, hretains.trans hretains'⟩

end

end Blueprint

end CachedCalls
