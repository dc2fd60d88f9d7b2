import CachedCalls.Text.Names

set_option autoImplicit false

namespace CachedCalls

variable {κ α : Type} [BEq κ] [LawfulBEq κ] [DecidableEq κ]

theorem lookup_cons_if (e : κ × α) (es : List (κ × α)) (k : κ) :
    List.lookup k (e :: es) = if k = e.1 then some e.2 else es.lookup k := by
  obtain ⟨l, a⟩ := e
  rw [List.lookup_cons]
  by_cases h : k = l
  · simp [h]
  · rw [beq_false_of_ne h, if_neg h]

theorem lookup_fileUnder (n : String) (a : α) (es : List (String × α)) (p : String) :
    (fileUnder n a es).lookup p = if p = n then some a else es.lookup p := by
  induction es with
  | nil => rw [fileUnder, lookup_cons_if]
  | cons e es ih =>
    obtain ⟨m, b⟩ := e
    unfold fileUnder
    by_cases hnm : n = m
    · rw [if_pos hnm, lookup_cons_if, lookup_cons_if, ← hnm]
      by_cases hp : p = n <;> simp [hp]
    · rw [if_neg hnm]
      by_cases hlt : n < m
      · rw [if_pos hlt, lookup_cons_if]
      · rw [if_neg hlt, lookup_cons_if, lookup_cons_if, ih]
        by_cases hp : p = m
        · have hpn : p ≠ n := fun h => hnm (h.symm.trans hp)
          rw [if_pos hp, if_pos hp, if_neg hpn]
        · rw [if_neg hp, if_neg hp]

theorem lookup_replace (k : κ) (a : α) (es : List (κ × α)) (l : κ) :
    (es.map fun e => if e.1 = k then (k, a) else e).lookup l =
      if l = k then (es.lookup l).map (fun _ => a) else es.lookup l := by
  induction es with
  | nil => simp
  | cons e es ih =>
    rw [List.map_cons, lookup_cons_if, lookup_cons_if, ih]
    by_cases he : e.1 = k
    · rw [if_pos he]
      by_cases hl : l = k
      · simp [hl, he]
      · simp [hl, he]
    · rw [if_neg he]
      by_cases hl : l = k
      · have hle : l ≠ e.1 := fun h => he (h.symm.trans hl)
        simp [hl, hl ▸ hle]
      · simp [hl]

section Filing

variable {n : String} {a : α} {es : List (String × α)}

theorem mem_of_lookup (h : es.lookup n = some a) : (n, a) ∈ es := by
  obtain ⟨_, _, rfl, -⟩ := List.lookup_eq_some_iff.1 h
  exact List.mem_append_right _ List.mem_cons_self

theorem lookup_of_mem (h : (es.map (·.1)).Nodup) {e : String × α} (he : e ∈ es) :
    es.lookup e.1 = some e.2 := by
  induction es with
  | nil => cases he
  | cons d es ih =>
    obtain ⟨hd, hes⟩ := List.nodup_cons.1 h
    rw [lookup_cons_if]
    obtain rfl | he := List.mem_cons.1 he
    · exact if_pos rfl
    · have hne : e.1 ≠ d.1 := fun hed => hd (List.mem_map.2 ⟨e, he, hed⟩)
      rw [if_neg hne, ih hes he]

theorem lookup_perm {ds : List (String × α)} (h : ds.Perm es) (hes : (es.map (·.1)).Nodup)
    (p : String) : ds.lookup p = es.lookup p := by
  cases hp : ds.lookup p with
  | some a => exact (lookup_of_mem hes (h.mem_iff.1 (mem_of_lookup hp))).symm
  | none =>
    refine (List.lookup_eq_none_iff.2 fun e he => ?_).symm
    exact List.lookup_eq_none_iff.1 hp e (h.mem_iff.2 he)

theorem lookup_isSome_of_mem (h : n ∈ es.map (·.1)) : (es.lookup n).isSome = true := by
  obtain ⟨e, he, rfl⟩ := List.mem_map.1 h
  exact List.lookup_isSome_iff.2 ⟨e, he, beq_self_eq_true e.1⟩

theorem mem_fileUnder {e : String × α} (h : e ∈ fileUnder n a es) : e = (n, a) ∨ e ∈ es := by
  induction es with
  | nil => exact .inl (List.mem_singleton.1 h)
  | cons d es ih =>
    obtain ⟨m, b⟩ := d
    unfold fileUnder at h
    by_cases hnm : n = m
    · rw [if_pos hnm] at h
      exact (List.mem_cons.1 h).imp_right (List.mem_cons_of_mem _)
    · rw [if_neg hnm] at h
      by_cases hlt : n < m
      · rw [if_pos hlt] at h
        exact List.mem_cons.1 h
      · rw [if_neg hlt] at h
        obtain rfl | h := List.mem_cons.1 h
        · exact .inr List.mem_cons_self
        · exact (ih h).imp_right (List.mem_cons_of_mem _)

theorem fileUnder_sorted (n : String) (a : α) (h : es.Pairwise fun d e => d.1 < e.1) :
    (fileUnder n a es).Pairwise fun d e => d.1 < e.1 := by
  induction es with
  | nil => exact List.pairwise_singleton _ _
  | cons d es ih =>
    obtain ⟨m, b⟩ := d
    obtain ⟨hm, hes⟩ := List.pairwise_cons.1 h
    unfold fileUnder
    by_cases hnm : n = m
    · rw [if_pos hnm]
      cases hnm
      exact List.pairwise_cons.2 ⟨hm, hes⟩
    · rw [if_neg hnm]
      by_cases hlt : n < m
      · rw [if_pos hlt]
        refine List.pairwise_cons.2 ⟨fun e he => ?_, h⟩
        obtain rfl | he := List.mem_cons.1 he
        · exact hlt
        · exact String.lt_trans hlt (hm e he)
      · rw [if_neg hlt]
        refine List.pairwise_cons.2 ⟨fun e he => ?_, ih hes⟩
        obtain rfl | he := mem_fileUnder he
        · exact Decidable.byContradiction fun hmn =>
            hnm (String.le_antisymm (String.not_lt.1 hmn) (String.not_lt.1 hlt))
        · exact hm e he

theorem names_nodup (h : es.Pairwise fun d e => d.1 < e.1) : (es.map (·.1)).Nodup := by
  refine List.pairwise_map.2 (h.imp fun hlt heq => ?_)
  rw [heq] at hlt
  exact String.lt_irrefl _ hlt

end Filing

section Distinct

theorem distinct_after (ns seen : List String) (h : seen.Nodup) :
    let all := ns.foldl (fun seen n => if n ∈ seen then seen else seen ++ [n]) seen
    all.Nodup ∧ ∀ n, n ∈ all ↔ n ∈ seen ∨ n ∈ ns := by
  induction ns generalizing seen with
  | nil => exact ⟨h, fun n => by simp⟩
  | cons m ns ih =>
    rw [List.foldl_cons]
    by_cases hm : m ∈ seen
    · obtain ⟨hnodup, hmem⟩ := ih seen h
      rw [if_pos hm]
      refine ⟨hnodup, fun n => (hmem n).trans ?_⟩
      simp only [List.mem_cons]
      exact ⟨fun h => h.imp_right .inr, fun h => h.elim .inl fun h =>
        h.elim (fun hnm => .inl (hnm ▸ hm)) .inr⟩
    · have happend : (seen ++ [m]).Nodup :=
        List.nodup_append.2 ⟨h, List.pairwise_singleton _ _, fun a ha b hb hab =>
          hm (List.mem_singleton.1 hb ▸ hab ▸ ha)⟩
      obtain ⟨hnodup, hmem⟩ := ih (seen ++ [m]) happend
      rw [if_neg hm]
      refine ⟨hnodup, fun n => (hmem n).trans ?_⟩
      simp only [List.mem_append, List.mem_cons, List.not_mem_nil, or_false, or_assoc]

theorem distinct_nodup (ns : List String) : (distinct ns).Nodup :=
  (distinct_after ns [] List.nodup_nil).1

theorem mem_distinct {ns : List String} {n : String} : n ∈ distinct ns ↔ n ∈ ns :=
  ((distinct_after ns [] List.nodup_nil).2 n).trans (by simp)

end Distinct

end CachedCalls
