import CachedCalls.Cache.Flight
import CachedCalls.Proofs.Association

set_option autoImplicit false

namespace CachedCalls.Flights

def holders (fs : Flights) (i : Nat) : Nat := ((fs.flight? i).map (·.holders)).getD 0

def tabled (fs : Flights) (i : Nat) : Nat := fs.table.countP fun e => decide (e.2 = i)

structure WF (fs : Flights) : Prop where
  ids : (fs.live.map (·.1)).Nodup
  fresh : ∀ i ∈ fs.live.map (·.1), i < fs.fresh
  keys : (fs.table.map (·.1)).Nodup

theorem wf_empty : WF {} := ⟨List.nodup_nil, fun _ hi => (nomatch hi), List.nodup_nil⟩

variable {fs : Flights}

theorem flight?_fresh (hw : fs.WF) : fs.flight? fs.fresh = none := by
  rw [flight?, List.lookup_eq_none_iff]
  intro e he
  have hlt := hw.fresh e.1 (List.mem_map_of_mem he)
  exact bne_iff_ne.2 (Nat.ne_of_gt hlt)

theorem holders_pos {i : Nat} : 0 < fs.holders i → ∃ f, fs.flight? i = some f := by
  unfold holders
  cases fs.flight? i with
  | none => exact fun h => absurd h (Nat.lt_irrefl 0)
  | some f => exact fun _ => ⟨f, rfl⟩

theorem tabled_pos {k : Key} {i : Nat} (h : fs.find? k = some i) : 0 < fs.tabled i := by
  obtain ⟨e, he, rfl⟩ := Option.map_eq_some_iff.1 h
  exact List.countP_pos_iff.2 ⟨e, List.mem_of_find?_eq_some he, decide_eq_true rfl⟩

section Modify

variable (i : Nat) (f : Flight → Flight)

theorem modify_ids : (fs.modify i f).live.map (·.1) = fs.live.map (·.1) := by
  unfold modify
  rw [List.map_map]
  refine List.map_congr_left fun e _ => ?_
  by_cases h : e.1 = i <;> simp [h]

theorem WF.modify (hw : fs.WF) : (fs.modify i f).WF where
  ids := by rw [modify_ids]; exact hw.ids
  fresh := by rw [modify_ids]; exact hw.fresh
  keys := hw.keys

theorem flight?_modify (j : Nat) :
    (fs.modify i f).flight? j = if j = i then (fs.flight? j).map f else fs.flight? j := by
  unfold flight? modify
  induction fs.live with
  | nil => simp
  | cons e es ih =>
    rw [List.map_cons, lookup_cons_if, lookup_cons_if, ih]
    by_cases he : e.1 = i
    · subst he
      by_cases hj : j = e.1 <;> simp [hj]
    · by_cases hj : j = e.1
      · simp [hj, he]
      · simp [hj, he]

theorem map_flight?_modify {β : Type} (g : Flight → β) (hf : ∀ x, g (f x) = g x) (j : Nat) :
    ((fs.modify i f).flight? j).map g = (fs.flight? j).map g := by
  rw [flight?_modify]
  by_cases h : j = i
  · rw [if_pos h]
    cases fs.flight? j with
    | none => rfl
    | some x => exact congrArg some (hf x)
  · rw [if_neg h]

theorem holders_modify (j : Nat) (hf : ∀ x, (f x).holders = x.holders) :
    (fs.modify i f).holders j = fs.holders j :=
  congrArg (·.getD 0) (map_flight?_modify i f (·.holders) hf j)

theorem isLocked_modify (j : Nat) (hf : ∀ x, (f x).locked = x.locked) :
    (fs.modify i f).isLocked j = fs.isLocked j :=
  congrArg (·.getD false) (map_flight?_modify i f (·.locked) hf j)

end Modify

theorem isLocked_setLocked {i : Nat} (hi : 0 < fs.holders i) (b : Bool) (j : Nat) :
    (fs.setLocked i b).isLocked j = if j = i then b else fs.isLocked j := by
  obtain ⟨f, hf⟩ := holders_pos hi
  unfold isLocked setLocked
  rw [flight?_modify]
  by_cases h : j = i
  · rw [if_pos h, if_pos h, h, hf]
    rfl
  · rw [if_neg h, if_neg h]

theorem find?_enter (k : Key) : (fs.enter k).2.find? k = some (fs.enter k).1 := by
  unfold enter
  cases h : fs.find? k with
  | some i => exact h
  | none => simp [find?]

theorem find?_enter_of_some {k l : Key} {i : Nat} (hl : fs.find? l = some i) :
    (fs.enter k).2.find? l = some i := by
  unfold enter
  cases h : fs.find? k with
  | some j => exact hl
  | none =>
    have hne : ¬ k = l := by
      rintro rfl
      rw [h] at hl
      cases hl
    simpa [find?, hne] using hl

theorem not_mem_keys {k : Key} (h : fs.find? k = none) : k ∉ fs.table.map (·.1) := by
  unfold find? at h
  rw [Option.map_eq_none_iff, List.find?_eq_none] at h
  intro hm
  obtain ⟨e, he, rfl⟩ := List.mem_map.1 hm
  exact h e he (decide_eq_true rfl)

theorem WF.enter (hw : fs.WF) (k : Key) : (fs.enter k).2.WF := by
  unfold Flights.enter
  cases h : fs.find? k with
  | some i => exact WF.modify i (fun f => { f with holders := f.holders + 1 }) hw
  | none =>
    refine ⟨?_, ?_, ?_⟩
    · refine List.nodup_cons.2 ⟨fun hm => ?_, hw.ids⟩
      exact absurd (hw.fresh _ hm) (Nat.lt_irrefl _)
    · refine List.forall_mem_cons.2 ⟨Nat.lt_succ_self _, fun i hi => ?_⟩
      exact Nat.lt_succ_of_lt (hw.fresh i hi)
    · exact List.nodup_cons.2 ⟨not_mem_keys h, hw.keys⟩

theorem isLocked_enter (hw : fs.WF) (k : Key) (j : Nat) :
    (fs.enter k).2.isLocked j = fs.isLocked j := by
  unfold enter
  cases fs.find? k with
  | some i => exact isLocked_modify i _ j fun _ => rfl
  | none =>
    unfold isLocked flight?
    rw [lookup_cons_if]
    by_cases h : j = fs.fresh
    · subst h
      have hf := flight?_fresh hw
      rw [flight?] at hf
      simp [hf]
    · rw [if_neg h]

theorem holders_enter (hw : fs.WF) {k : Key} (hlive : ∀ i, fs.find? k = some i → 0 < fs.holders i)
    (j : Nat) : (fs.enter k).2.holders j + fs.tabled j =
      fs.holders j + (fs.enter k).2.tabled j + if j = (fs.enter k).1 then 1 else 0 := by
  unfold enter
  cases h : fs.find? k with
  | some i =>
    obtain ⟨f, hf⟩ := holders_pos (hlive i h)
    change holders (fs.modify i _) j + _ = _ + fs.tabled j + if j = i then 1 else 0
    unfold holders
    rw [flight?_modify]
    by_cases hj : j = i
    · rw [if_pos hj, if_pos hj, hj, hf]
      simp only [Option.map_some, Option.getD_some]
      omega
    · rw [if_neg hj, if_neg hj]
      rfl
  | none =>
    have hf := flight?_fresh hw
    unfold holders flight? tabled
    rw [flight?] at hf
    rw [lookup_cons_if, List.countP_cons]
    by_cases hj : j = fs.fresh
    · subst hj
      simp [hf]
      omega
    · have hne : ¬ fs.fresh = j := fun h => hj h.symm
      simp [hj, hne]

def fewer (f : Flight) : Flight := { f with holders := f.holders - 1 }

theorem holders_fewer (i j : Nat) : (fs.modify i fewer).holders j =
    if j = i then fs.holders j - 1 else fs.holders j := by
  unfold holders
  rw [flight?_modify]
  by_cases h : j = i
  · rw [if_pos h, if_pos h]
    cases fs.flight? j <;> rfl
  · rw [if_neg h, if_neg h]

theorem tabled_without {t : List (Key × Nat)} (ht : (t.map (·.1)).Nodup) {k : Key} {i : Nat}
    (hk : (k, i) ∈ t) (j : Nat) :
    (t.filter fun e => decide (e.1 ≠ k)).countP (fun e => decide (e.2 = j)) +
      (if i = j then 1 else 0) = t.countP fun e => decide (e.2 = j) := by
  induction t with
  | nil => cases hk
  | cons e t ih =>
    obtain ⟨hnot, ht⟩ := List.nodup_cons.1 ht
    obtain rfl | hk := List.mem_cons.1 hk
    · have hself : (t.filter fun e => decide (e.1 ≠ k)) = t := by
        rw [List.filter_eq_self]
        intro e he
        refine decide_eq_true fun h => hnot ?_
        exact h ▸ List.mem_map_of_mem (f := (·.1)) he
      rw [List.filter_cons_of_neg (by simp), hself, List.countP_cons]
      simp
    · have hne : e.1 ≠ k := by
        rintro rfl
        exact hnot (List.mem_map_of_mem (f := (·.1)) hk)
      rw [List.filter_cons_of_pos (by simpa using hne), List.countP_cons, List.countP_cons,
        ← ih ht hk]
      omega

theorem mem_table {k : Key} {i : Nat} (h : fs.find? k = some i) : (k, i) ∈ fs.table := by
  obtain ⟨e, he, rfl⟩ := Option.map_eq_some_iff.1 h
  have hk : e.1 = k := of_decide_eq_true (List.find?_some he :)
  exact hk ▸ List.mem_of_find?_eq_some he

theorem find?_without (t : List (Key × Nat)) {k l : Key} (hl : l ≠ k) :
    (t.filter fun e => decide (e.1 ≠ k)).find? (fun e => decide (e.1 = l)) =
      t.find? fun e => decide (e.1 = l) := by
  rw [List.find?_filter]
  congr 1
  funext e
  by_cases h : e.1 = l
  · simp [h, hl]
  · simp [h]

/-- To leave either changes nothing, or takes a flight with one caller out of the table. -/
theorem leave_cases (fs : Flights) (k : Key) (i : Nat) :
    fs.leave k i = fs ∨ (fs.find? k = some i ∧ fs.holders i = 2 ∧ fs.leave k i =
      { fs.modify i fewer with table := fs.table.filter fun e => decide (e.1 ≠ k) }) := by
  unfold leave
  by_cases h : fs.find? k = some i ∧ (fs.flight? i).map (·.holders) = some 2
  · refine .inr ⟨h.1, ?_, by rw [if_pos h]; rfl⟩
    rw [holders, h.2]
    rfl
  · exact .inl (by rw [if_neg h])

theorem WF.leave (hw : fs.WF) (k : Key) (i : Nat) : (fs.leave k i).WF := by
  obtain h | ⟨-, -, h⟩ := leave_cases fs k i
  · rw [h]
    exact hw
  · have hm := hw.modify i fewer
    rw [h]
    exact ⟨hm.ids, hm.fresh, hw.keys.sublist (List.filter_sublist.map _)⟩

theorem isLocked_leave (k : Key) (i j : Nat) : (fs.leave k i).isLocked j = fs.isLocked j := by
  obtain h | ⟨-, -, h⟩ := leave_cases fs k i
  · rw [h]
  · rw [h]
    exact isLocked_modify i fewer j fun _ => rfl

theorem holders_leave (hw : fs.WF) (k : Key) (i j : Nat) :
    (fs.leave k i).holders j + fs.tabled j = fs.holders j + (fs.leave k i).tabled j := by
  obtain h | ⟨hk, htwo, h⟩ := leave_cases fs k i
  · rw [h]
  · rw [h]
    have ht := tabled_without hw.keys (mem_table hk) j
    change (fs.modify i fewer).holders j + _ =
      _ + (fs.table.filter fun e => decide (e.1 ≠ k)).countP fun e => decide (e.2 = j)
    rw [holders_fewer, tabled, ← ht]
    by_cases hj : j = i
    · subst hj
      rw [if_pos rfl, if_pos rfl, htwo]
      omega
    · rw [if_neg hj, if_neg fun h => hj h.symm]
      rfl

theorem find?_leave {k l : Key} {i j : Nat} (hl : fs.find? l = some j)
    (hother : fs.holders i = 2 → j ≠ i) : (fs.leave k i).find? l = some j := by
  obtain h | ⟨hk, htwo, h⟩ := leave_cases fs k i
  · rw [h]
    exact hl
  · have hne : l ≠ k := by
      rintro rfl
      rw [hk] at hl
      cases hl
      exact hother htwo rfl
    rw [h]
    change (List.find? _ (List.filter _ fs.table)).map _ = _
    rw [find?_without fs.table hne]
    exact hl

theorem lookup_without {es : List (Nat × Flight)} (hes : (es.map (·.1)).Nodup) (i j : Nat) :
    (es.filter fun e => decide (e.1 = i → e.2.holders ≠ 0)).lookup j =
      if j = i then (es.lookup j).filter fun f => decide (f.holders ≠ 0) else es.lookup j := by
  induction es with
  | nil => simp
  | cons e es ih =>
    obtain ⟨hnot, hes⟩ := List.nodup_cons.1 hes
    have ih := ih hes
    by_cases he : e.1 = i ∧ e.2.holders = 0
    · obtain ⟨rfl, hz⟩ := he
      have hnone : es.lookup e.1 = none := by
        rw [List.lookup_eq_none_iff]
        intro e' he'
        refine bne_iff_ne.2 fun h : e.1 = e'.1 => hnot ?_
        exact List.mem_map.2 ⟨e', he', h.symm⟩
      rw [List.filter_cons_of_neg (by simp [hz]), ih, lookup_cons_if]
      by_cases hj : j = e.1
      · simp [hj, hz, hnone, Option.filter_some]
      · simp [hj]
    · have hkeep : e.1 = i → e.2.holders ≠ 0 := fun h hz => he ⟨h, hz⟩
      rw [List.filter_cons_of_pos (by exact decide_eq_true hkeep), lookup_cons_if, lookup_cons_if, ih]
      by_cases hj : j = e.1
      · subst hj
        by_cases hi : e.1 = i
        · simp [hi, hkeep hi, Option.filter_some]
        · simp [hi]
      · simp [hj]

theorem flight?_letGo (hw : fs.WF) (i j : Nat) : (fs.letGo i).flight? j =
    if j = i then ((fs.flight? j).map fewer).filter fun f => decide (f.holders ≠ 0)
    else fs.flight? j := by
  have hm := (hw.modify i fewer).ids
  have hf : (fs.modify i fewer).flight? j = _ := flight?_modify i fewer j
  change ((fs.modify i fewer).live.filter fun e => decide (e.1 = i → e.2.holders ≠ 0)).lookup j = _
  rw [lookup_without hm i j]
  change (if j = i then Option.filter _ ((fs.modify i fewer).flight? j)
    else (fs.modify i fewer).flight? j) = _
  rw [hf]
  by_cases h : j = i
  · rw [if_pos h, if_pos h, if_pos h]
  · rw [if_neg h, if_neg h, if_neg h]

theorem WF.letGo (hw : fs.WF) (i : Nat) : (fs.letGo i).WF := by
  have hm := hw.modify i fewer
  have hsub : List.Sublist ((fs.letGo i).live.map (·.1)) ((fs.modify i fewer).live.map (·.1)) :=
    List.filter_sublist.map _
  exact ⟨hm.ids.sublist hsub, fun j hj => hm.fresh j (hsub.subset hj), hw.keys⟩

theorem holders_letGo (hw : fs.WF) (i j : Nat) :
    (fs.letGo i).holders j = if j = i then fs.holders j - 1 else fs.holders j := by
  rw [← holders_fewer]
  unfold holders
  rw [flight?_letGo hw, flight?_modify]
  by_cases h : j = i
  · rw [if_pos h, if_pos h]
    cases (fs.flight? j).map fewer with
    | none => rfl
    | some f => by_cases hz : f.holders = 0 <;> simp [hz, Option.filter_some]
  · rw [if_neg h, if_neg h]

theorem flight?_of_letGo (hw : fs.WF) {i j : Nat} {f : Flight}
    (hf : (fs.letGo i).flight? j = some f) :
    ∃ g, fs.flight? j = some g ∧ g.locked = f.locked ∧ g.loader = f.loader := by
  have hl := flight?_letGo hw i j
  by_cases h : j = i
  · rw [if_pos h, hf] at hl
    obtain ⟨g, hg, rfl⟩ := Option.map_eq_some_iff.1 (Option.filter_eq_some_iff.1 hl.symm).1
    exact ⟨g, hg, rfl, rfl⟩
  · rw [if_neg h, hf] at hl
    exact ⟨f, hl.symm, rfl, rfl⟩

theorem isLocked_letGo (hw : fs.WF) {i j : Nat} (hj : 0 < (fs.letGo i).holders j) :
    (fs.letGo i).isLocked j = fs.isLocked j := by
  obtain ⟨f, hf⟩ := holders_pos hj
  obtain ⟨g, hg, hlocked, -⟩ := flight?_of_letGo hw hf
  simp only [isLocked, hf, hg, Option.map_some, Option.getD_some]
  exact hlocked.symm

theorem isLocked_of_letGo (hw : fs.WF) {i j : Nat} (hj : (fs.letGo i).isLocked j = true) :
    fs.isLocked j = true := by
  cases hf : (fs.letGo i).flight? j with
  | none => simp [isLocked, hf] at hj
  | some f =>
    obtain ⟨g, hg, hlocked, -⟩ := flight?_of_letGo hw hf
    simp only [isLocked, hf, hg, Option.map_some, Option.getD_some] at hj ⊢
    rw [hlocked, hj]

theorem loader?_modify (i : Nat) (f : Flight → Flight) (j : Nat)
    (hf : ∀ x, (f x).loader = x.loader) : (fs.modify i f).loader? j = fs.loader? j := by
  unfold loader?
  rw [flight?_modify]
  by_cases h : j = i
  · rw [if_pos h]
    cases fs.flight? j with
    | none => rfl
    | some x => exact hf x
  · rw [if_neg h]

theorem loader?_setLoader {i : Nat} (hi : 0 < fs.holders i) (who : Option Nat) (j : Nat) :
    (fs.setLoader i who).loader? j = if j = i then who else fs.loader? j := by
  obtain ⟨f, hf⟩ := holders_pos hi
  unfold loader? setLoader
  rw [flight?_modify]
  by_cases h : j = i
  · rw [if_pos h, if_pos h, h, hf]
    rfl
  · rw [if_neg h, if_neg h]

theorem loader?_enter (hw : fs.WF) (k : Key) (j : Nat) :
    (fs.enter k).2.loader? j = fs.loader? j := by
  unfold enter
  cases fs.find? k with
  | some i => exact loader?_modify i _ j fun _ => rfl
  | none =>
    unfold loader? flight?
    rw [lookup_cons_if]
    by_cases h : j = fs.fresh
    · subst h
      have hf := flight?_fresh hw
      rw [flight?] at hf
      simp [hf]
    · rw [if_neg h]

theorem loader?_leave (k : Key) (i j : Nat) : (fs.leave k i).loader? j = fs.loader? j := by
  obtain h | ⟨-, -, h⟩ := leave_cases fs k i
  · rw [h]
  · rw [h]
    exact loader?_modify i fewer j fun _ => rfl

theorem loader?_of_letGo (hw : fs.WF) {i j w : Nat} (hj : (fs.letGo i).loader? j = some w) :
    fs.loader? j = some w := by
  cases hf : (fs.letGo i).flight? j with
  | none => simp [loader?, hf] at hj
  | some f =>
    obtain ⟨g, hg, -, hloader⟩ := flight?_of_letGo hw hf
    simp only [loader?, hf, hg, Option.bind_some] at hj ⊢
    rw [hloader, hj]

end CachedCalls.Flights
