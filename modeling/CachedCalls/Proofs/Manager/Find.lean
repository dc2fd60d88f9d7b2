import CachedCalls.Manager.Basic

set_option autoImplicit false

namespace CachedCalls

variable {σ : Type} [BoundedStore σ]

theorem CacheKind.get_fresh [DocumentedStore σ] {kind : CacheKind} {n : String} {allowNull : Bool}
    {c : Cache σ} (hc : kind.fresh n allowNull = some c) (k : Key) : Backend.get c k = none := by
  cases kind with
  | bounded b =>
    obtain ⟨d, hd, rfl⟩ := Option.map_eq_some_iff.1 hc
    obtain ⟨s, hs, rfl⟩ := Option.map_eq_some_iff.1 hd
    exact DocumentedStore.get_build _ _ s hs k
  | _ =>
    cases hc
    rfl

theorem CacheKind.name_fresh {kind : CacheKind} {n : String} {allowNull : Bool} {c : Cache σ}
    (hc : kind.fresh n allowNull = some c) : Backend.name c = n := by
  cases kind with
  | bounded b =>
    obtain ⟨d, hd, rfl⟩ := Option.map_eq_some_iff.1 hc
    obtain ⟨s, -, rfl⟩ := Option.map_eq_some_iff.1 hd
    rfl
  | _ =>
    cases hc
    rfl

theorem BoundedSettings.expiry?_getD (b : BoundedSettings) : b.expiry?.getD 0 = b.timeToLive := by
  unfold expiry?
  split
  · next h => exact h.symm
  · rfl

def CacheKind.builds : CacheKind → Bool
  | bounded b => decide (b.timeToLive ≤ longestLife)
  | _ => true

variable (σ) in
theorem CacheKind.isSome_fresh [DocumentedStore σ] (kind : CacheKind) (n : String)
    (allowNull : Bool) : (kind.fresh n allowNull : Option (Cache σ)).isSome = kind.builds := by
  cases kind with
  | bounded b =>
    have hbuild : (BoundedStore.build b.maxCapacity b.expiry? : Option σ).isSome = true ↔ _ :=
      DocumentedStore.isSome_build b.maxCapacity b.expiry?
    rw [b.expiry?_getD] at hbuild
    simp only [fresh, BoundedCache.ofSettings, Option.isSome_map, builds]
    exact Bool.eq_iff_iff.2 (hbuild.trans decide_eq_true_iff.symm)
  | _ => rfl

def Heap.Grows (h h' : Heap σ) : Prop := ∃ cs, h' = h ++ cs ∧ ∀ c ∈ cs, ∀ k, Backend.get c k = none

namespace Heap.Grows

theorem refl (h : Heap σ) : Grows h h := ⟨[], (List.append_nil h).symm, fun _ hc => nomatch hc⟩

theorem trans {h h' h'' : Heap σ} (h₁ : Grows h h') (h₂ : Grows h' h'') : Grows h h'' := by
  obtain ⟨cs, rfl, hcs⟩ := h₁
  obtain ⟨ds, rfl, hds⟩ := h₂
  refine ⟨cs ++ ds, List.append_assoc h cs ds, fun c hc => ?_⟩
  obtain hc | hc := List.mem_append.1 hc
  · exact hcs c hc
  · exact hds c hc

theorem fresh [DocumentedStore σ] {kind : CacheKind} {n : String} {allowNull : Bool} {c : Cache σ}
    (hc : kind.fresh n allowNull = some c) (h : Heap σ) : Grows h (h ++ [c]) := by
  refine ⟨[c], rfl, fun d hd => ?_⟩
  cases List.mem_singleton.1 hd
  exact CacheKind.get_fresh hc

end Heap.Grows

namespace Manager

/-- The ways that asking a manager of one kind of caches goes. -/
inductive Finds (n : String) (kind : CacheKind) (dynamic allowNull : Bool)
    (caches : List (String × Nat)) (h : Heap σ) : Finding × Manager × Heap σ → Prop where
  | known {i : Nat} (hn : caches.lookup n = some i) :
      Finds n kind dynamic allowNull caches h (.cache i, leaf kind dynamic allowNull caches, h)
  | unknown (hn : caches.lookup n = none) (hd : dynamic = false) :
      Finds n kind dynamic allowNull caches h (.nothing, leaf kind dynamic allowNull caches, h)
  | refused (hn : caches.lookup n = none) (hd : dynamic = true)
      (hc : kind.fresh n allowNull = (none : Option (Cache σ))) :
      Finds n kind dynamic allowNull caches h (.refused, leaf kind dynamic allowNull caches, h)
  | made {c : Cache σ} (hn : caches.lookup n = none) (hd : dynamic = true)
      (hc : kind.fresh n allowNull = some c) :
      Finds n kind dynamic allowNull caches h
        (.cache h.length, leaf kind dynamic allowNull (fileUnder n h.length caches), h ++ [c])

theorem find_leaf (n : String) (kind : CacheKind) (dynamic allowNull : Bool)
    (caches : List (String × Nat)) (h : Heap σ) :
    Finds n kind dynamic allowNull caches h (find n (leaf kind dynamic allowNull caches) h) := by
  rw [find]
  cases hn : caches.lookup n with
  | some i => exact .known hn
  | none =>
    cases hd : dynamic with
    | false => exact .unknown hn rfl
    | true =>
      unfold add
      cases hc : (kind.fresh n allowNull : Option (Cache σ)) with
      | none => exact .refused hn rfl hc
      | some c => exact .made hn rfl hc

mutual

theorem find_grows [DocumentedStore σ] (n : String) (m : Manager) (h : Heap σ) :
    h.Grows (find n m h).2.2 := by
  match m with
  | leaf kind dynamic allowNull caches =>
    have hfinds := find_leaf n kind dynamic allowNull caches h
    generalize find n (leaf kind dynamic allowNull caches) h = x at hfinds
    cases hfinds with
    | made _ _ hc => exact .fresh hc h
    | _ => exact .refl h
  | composite parts =>
    simp only [find]
    exact findFirst_grows n parts h

theorem findFirst_grows [DocumentedStore σ] (n : String) (ms : List Manager) (h : Heap σ) :
    h.Grows (findFirst n ms h).2.2 := by
  match ms with
  | [] => exact Heap.Grows.refl h
  | m :: ms =>
    have hm := find_grows n m h
    rw [findFirst]
    rcases hfind : find n m h with ⟨_ | _ | _, m', h'⟩ <;> rw [hfind] at hm
    · exact hm
    · exact hm.trans (findFirst_grows n ms h')
    · exact hm

end

mutual

theorem find_of_length (n : String) (m : Manager) (l : Nat) :
    ∃ f m' cs, ∀ h : Heap σ, h.length = l → find n m h = (f, m', h ++ cs) := by
  match m with
  | leaf kind dynamic allowNull caches =>
    simp only [find]
    cases caches.lookup n with
    | some i => exact ⟨.cache i, _, [], fun h _ => by rw [List.append_nil]⟩
    | none =>
      cases dynamic with
      | false => exact ⟨.nothing, _, [], fun h _ => by rw [List.append_nil]; rfl⟩
      | true =>
        simp only [add]
        cases (kind.fresh n allowNull : Option (Cache σ)) with
        | none => exact ⟨.refused, _, [], fun h _ => by rw [List.append_nil]; rfl⟩
        | some c =>
          refine ⟨.cache l, leaf kind true allowNull (fileUnder n l caches), [c], fun h hl => ?_⟩
          rw [← hl]
          rfl
  | composite parts =>
    obtain ⟨f, ms', cs, hfirst⟩ := findFirst_of_length n parts l
    refine ⟨f, composite ms', cs, fun h hl => ?_⟩
    rw [find, hfirst h hl]

theorem findFirst_of_length (n : String) (ms : List Manager) (l : Nat) :
    ∃ f ms' cs, ∀ h : Heap σ, h.length = l → findFirst n ms h = (f, ms', h ++ cs) := by
  match ms with
  | [] => exact ⟨.nothing, [], [], fun h _ => by rw [findFirst, List.append_nil]⟩
  | m :: ms =>
    obtain ⟨f, m', cs, hfind⟩ := find_of_length n m l
    cases f with
    | nothing =>
      obtain ⟨g, ms', ds, hfirst⟩ := findFirst_of_length n ms (l + cs.length)
      refine ⟨g, m' :: ms', cs ++ ds, fun h hl => ?_⟩
      have hlength : (h ++ cs).length = l + cs.length := by rw [List.length_append, hl]
      rw [findFirst, hfind h hl]
      simp only [hfirst _ hlength, List.append_assoc]
    | cache i => exact ⟨.cache i, m' :: ms, cs, fun h hl => by rw [findFirst, hfind h hl]⟩
    | refused => exact ⟨.refused, m' :: ms, cs, fun h hl => by rw [findFirst, hfind h hl]⟩

end

end Manager

end CachedCalls
