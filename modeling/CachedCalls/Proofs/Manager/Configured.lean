import CachedCalls.Proofs.Manager.Serving

set_option autoImplicit false

namespace CachedCalls

variable {σ : Type} [BoundedStore σ]

open Manager

namespace ManagerSettings

variable {s : ManagerSettings} {kind : CacheKind}

theorem kind_of_backend (henabled : s.enabled = true)
    (h : s.backend ∈ ["concurrent_map", "map", "memory", "moka", "in-memory"]) :
    s.kind = if s.backend ∈ ["moka", "in-memory"] then .bounded s.bounded else .map := by
  unfold kind
  rw [henabled]
  simp only [List.mem_cons, List.not_mem_nil, or_false] at h
  obtain h | h | h | h | h := h <;> rw [h] <;> rfl

/-- The library builds the bounded caches that the settings may ask for. -/
def Fits (s : ManagerSettings) : Prop :=
  s.backend ∈ ["moka", "in-memory"] → s.bounded.timeToLive ≤ longestLife

theorem builds_iff (henabled : s.enabled = true)
    (h : s.backend ∈ ["concurrent_map", "map", "memory", "moka", "in-memory"]) :
    s.kind.builds = true ↔ s.Fits := by
  rw [kind_of_backend henabled h, Fits]
  split
  · next hmoka => simp [CacheKind.builds, hmoka]
  · next hmap => simp [CacheKind.builds, hmap]

variable [DocumentedStore σ]

theorem start_serves (hnames : s.dynamic = false → s.cacheNames ≠ []) (hb : kind.builds = true)
    (allowNull : Bool) (h : Heap σ) :
    ∃ r, s.start kind allowNull h = some r ∧
      Serves kind s.dynamic allowNull (· ∈ s.cacheNames) r := by
  unfold start
  cases hd : s.dynamic with
  | false =>
    have hstatic : s.isStatic = true := by simp [isStatic, hd, hnames hd]
    rw [if_pos hstatic]
    exact Serves.static hb s.cacheNames h
  | true =>
    have hstatic : ¬ s.isStatic = true := by simp [isStatic, hd]
    rw [if_neg hstatic]
    obtain ⟨r, hr, hserves⟩ := (Serves.dynamic_new kind allowNull h).findAll hb s.cacheNames
    exact ⟨r, hr, hserves.congr fun p => by simp⟩

theorem build_serves (hnames : s.dynamic = false → s.cacheNames ≠ [])
    (hkind : s.kind = .map ∨ s.kind = .bounded s.bounded) (hb : s.kind.builds = true) (h : Heap σ) :
    ∃ r, s.build h = some r ∧ Serves s.kind s.dynamic s.allowNull (· ∈ s.cacheNames) r := by
  unfold build
  obtain hkind | hkind := hkind
  · -- Maps are made to allow nulls at first, and made anew if they should not.
    rw [hkind] at hb ⊢
    obtain ⟨r, hr, hserves⟩ := start_serves hnames hb true h
    obtain ⟨r', hr', hserves'⟩ := hserves.setAllowNull hb s.allowNull
    exact ⟨r', Option.bind_eq_some_iff.2 ⟨r, hr, hr'⟩, hserves'⟩
  · rw [hkind] at hb ⊢
    exact start_serves hnames hb s.allowNull h

theorem start_refused (hb : kind.builds = false) (hnames : s.cacheNames ≠ []) (allowNull : Bool)
    (h : Heap σ) : s.start kind allowNull h = none := by
  unfold start
  split
  · rw [Manager.static, addAll_of_refused hb hnames]
    rfl
  · obtain ⟨n, ns, hns⟩ := List.exists_cons_of_ne_nil hnames
    have hrefused := ((Serves.dynamic_new kind allowNull h).find n).2.2.1.2 ⟨rfl, hb, id⟩
    simp only at hrefused
    rw [hns, findAll, List.foldlM_cons]
    simp only
    split
    · rfl
    · next hno hx =>
      rw [hx] at hrefused
      exact (hno hrefused).elim

theorem build_refused (hnames : s.dynamic = false → s.cacheNames ≠ [])
    (hkind : s.kind = .bounded s.bounded) (hb : s.kind.builds = false) (h : Heap σ) :
    (s.cacheNames ≠ [] → s.build h = none) ∧
      (s.cacheNames = [] → ∃ start, s.build h = some start ∧
        ∀ (isMap : Bool) (asked : List Step) (n : String),
          let r := Step.after isMap asked start
          (find n r.1 r.2).1 = .refused) := by
  have hbuild : s.build h = s.start s.kind s.allowNull h := by rw [build, hkind]
  rw [hbuild]
  refine ⟨fun hns => start_refused hb hns _ h, fun hns => ?_⟩
  have hd : s.dynamic = true := by simpa [hns] using hnames
  have hserves := Serves.dynamic_new s.kind s.allowNull h
  refine ⟨_, ?_, fun isMap asked n => ((hserves.after isMap asked).find n).2.2.1.2 ⟨rfl, hb, ?_⟩⟩
  · rw [start, hns]
    simp [isStatic, hd, findAll]
  · rintro (hno | hn)
    · exact hno
    · have hopen := hserves.of_mem_found hn
      simp [hb] at hopen

end ManagerSettings

theorem Cache.of_made [DocumentedStore σ] {c : Cache σ} {provider n : String} {b : Bool}
    (h : c.made = (provider, n, some b)) :
    Backend.provider c = provider ∧ Backend.name c = n ∧ c.Follows b := by
  obtain ⟨hprovider, hname, hnull⟩ :
      Backend.provider c = provider ∧ Backend.name c = n ∧ c.allowsNull? = some b := by
    simpa only [made, Prod.mk.injEq] using h
  exact ⟨hprovider, hname, follows_of_allowsNull hnull⟩

theorem Settings.names_of_valid {s : Settings} (h : s.validate = .ok s) :
    s.manager.dynamic = false → s.manager.cacheNames ≠ [] := by
  intro hd hnames
  have hfault : ∃ e, s.fault? = some e := by
    unfold fault?
    by_cases hblank : Text.isBlank s.manager.backend = true
    · exact ⟨_, if_pos hblank⟩
    · rw [if_neg hblank, if_pos ⟨hd, hnames⟩]
      exact ⟨_, rfl⟩
  obtain ⟨e, he⟩ := hfault
  rw [validate, he] at h
  cases h

namespace Manager

variable [DocumentedStore σ]

/-- For all valid settings of maps or bounded caches. If their bounds fit, a manager is built from
    them, and after anything that may have been asked of it: it has a cache for a name if it is dynamic
    or the name is in the settings, and for no other; every cache that it gives has the name, is of the
    kind that was chosen and follows the policy for nulls; and its names are, in order and each once,
    those in the settings and those that a cache was found for. If their bounds do not fit, no manager
    is built if they name a cache, and else one that is refused whatever cache it is asked for. -/
theorem settings_honoured {s : Settings} (hvalid : s.validate = .ok s)
    (henabled : s.manager.enabled = true)
    (hbackend : s.manager.backend ∈ ["concurrent_map", "map", "memory", "moka", "in-memory"])
    (h : Heap σ) :
    (s.manager.Fits → ∃ start, s.manager.build h = some start ∧
      ∀ (isMap : Bool) (asked : List Step) (n : String),
        let r := Step.after isMap asked start
        let found := find n r.1 r.2
        found.1 ≠ .refused ∧
        ((∃ i, found.1 = .cache i) ↔ s.manager.dynamic = true ∨ n ∈ s.manager.cacheNames) ∧
        (∀ i, found.1 = .cache i → ∃ c, found.2.2[i]? = some c ∧ Backend.name c = n ∧
          Backend.provider c =
            (if s.manager.backend ∈ ["moka", "in-memory"] then "moka" else "concurrent_map") ∧
          c.Follows s.manager.allowNull) ∧
        r.1.names.Pairwise (· < ·) ∧
        ∀ p, p ∈ r.1.names ↔ p ∈ s.manager.cacheNames ∨ p ∈ Step.found isMap asked start) ∧
    (¬ s.manager.Fits →
      (s.manager.cacheNames ≠ [] → s.manager.build h = none) ∧
      (s.manager.cacheNames = [] → ∃ start, s.manager.build h = some start ∧
        ∀ (isMap : Bool) (asked : List Step) (n : String),
          let r := Step.after isMap asked start
          (find n r.1 r.2).1 = .refused)) := by
  have hkind := ManagerSettings.kind_of_backend henabled hbackend
  have hbuilds := ManagerSettings.builds_iff henabled hbackend
  have hnames := Settings.names_of_valid hvalid
  refine ⟨fun hfits => ?_, fun hfits => ?_⟩
  · have hb := hbuilds.2 hfits
    have hkinds : s.manager.kind = .map ∨ s.manager.kind = .bounded s.manager.bounded := by
      rw [hkind]
      split
      · exact .inr rfl
      · exact .inl rfl
    obtain ⟨start, hstart, hserves⟩ := ManagerSettings.build_serves hnames hkinds hb h
    refine ⟨start, hstart, fun isMap asked n => ?_⟩
    intro r found
    have hafter := hserves.after isMap asked
    have hsound : Sound r.2 r.1 :=
      (Step.after_evolves isMap asked start).sound (ManagerSettings.build_built hstart).sound
    obtain ⟨hrefused, hfound⟩ := hserves.find_after hb isMap asked n
    refine ⟨hrefused, hfound, fun i hi => ?_, hafter.names_sorted hsound, hafter.mem_names⟩
    obtain ⟨c, hc, hmade⟩ := Option.map_eq_some_iff.1 ((hafter.find n).2.2.2 i hi)
    have hmade : c.made = (if s.manager.backend ∈ ["moka", "in-memory"] then "moka"
        else "concurrent_map", n, some s.manager.allowNull) := by
      rw [hmade, hkind]
      split <;> rfl
    obtain ⟨hprovider, hname, hfollows⟩ := Cache.of_made hmade
    exact ⟨c, hc, hname, hprovider, hfollows⟩
  · have hmoka : s.manager.backend ∈ ["moka", "in-memory"] :=
      Decidable.byContradiction fun hmap => hfits fun hm => absurd hm hmap
    rw [if_pos hmoka] at hkind
    exact ManagerSettings.build_refused hnames hkind
      (Bool.eq_false_iff.2 fun hb => hfits (hbuilds.1 hb)) h

def refusing : Settings :=
  { manager := {
      backend := "moka", allowNull := false, cacheNames := ["prices", "offers", "prices"]
      bounded := { timeToLive := 60 } } }

theorem settings_honoured_stock :
    ∃ start : Manager × Heap, refusing.manager.build [] = some start ∧
    let r := Step.after true [.get "stock", .on "offers" [.clear]] start
    (∃ i c, (find "stock" r.1 r.2).1 = .cache i ∧ (find "stock" r.1 r.2).2.2[i]? = some c ∧
      Backend.provider c = "moka" ∧
      ∀ k, Backend.put c k .null = .error (.nullRefused "stock")) ∧
    "stock" ∈ r.1.names ∧ "prices" ∈ r.1.names := by
  have hfits : refusing.manager.Fits := fun _ => by decide
  obtain ⟨start, hstart, hserves⟩ :=
    (settings_honoured (s := refusing) rfl rfl (by decide) ([] : Heap)).1 hfits
  obtain ⟨-, hsome, hcache, -, hnames⟩ :=
    hserves true [.get "stock", .on "offers" [.clear]] "stock"
  obtain ⟨i, hi⟩ := hsome.2 (.inl rfl)
  obtain ⟨c, hc, hname, hprovider, hfollows⟩ := hcache i hi
  refine ⟨start, hstart, ⟨i, c, hi, hc, hprovider, fun k => ?_⟩, ?_,
    (hnames "prices").2 (.inl (by decide))⟩
  · have hput := hfollows.put k .null
    rw [if_pos ⟨rfl, rfl⟩, hname] at hput
    exact hput
  · refine (hnames "stock").2 (.inr ?_)
    cases hstart
    decide +kernel

def everlasting : Settings :=
  { manager := { backend := "moka", bounded := { timeToLive := longestLife + 1 } } }

/-- The settings `everlasting` are valid, but the dynamic manager that is built from them gives no
    cache for a name. -/
theorem everlasting_refused :
    everlasting.validate = .ok everlasting ∧ everlasting.manager.enabled = true ∧
      everlasting.manager.dynamic = true ∧
      ∃ start : Manager × Heap, everlasting.manager.build [] = some start ∧
        ¬ ∃ i, (find "prices" start.1 start.2).1 = .cache i := by
  refine ⟨rfl, rfl, rfl, _, rfl, ?_⟩
  rintro ⟨i, hi⟩
  cases hi

end Manager

end CachedCalls
