set_option autoImplicit false

namespace CachedCalls.Text

def pieces (mark : Char) : List Char → List (List Char)
  | [] => [[]]
  | c :: cs =>
    if c = mark then [] :: pieces mark cs
    else
      match pieces mark cs with
      | [] => [[c]]
      | w :: ws => (c :: w) :: ws

theorem pieces_ne_nil (mark : Char) (cs : List Char) : pieces mark cs ≠ [] := by
  cases cs with
  | nil => simp [pieces]
  | cons c cs =>
    unfold pieces
    split
    · simp
    · split <;> simp

theorem intercalate_pieces (mark : Char) (cs : List Char) :
    [mark].intercalate (pieces mark cs) = cs := by
  induction cs with
  | nil => rfl
  | cons c cs ih =>
    unfold pieces
    have hne := pieces_ne_nil mark cs
    split
    · next h =>
      cases hp : pieces mark cs with
      | nil => exact absurd hp hne
      | cons w ws =>
        rw [hp] at ih
        simp only [List.intercalate, List.intersperse, List.flatten_cons, List.nil_append,
          List.singleton_append] at ih ⊢
        rw [ih, h]
    · split
      · next hp => exact absurd hp hne
      · next w ws hp =>
        rw [hp] at ih
        cases ws with
        | nil =>
          simp only [List.intercalate, List.intersperse, List.flatten_cons, List.flatten_nil,
            List.append_nil] at ih ⊢
          rw [ih]
        | cons x xs =>
          simp only [List.intercalate, List.intersperse, List.flatten_cons, List.cons_append] at ih ⊢
          rw [ih]

theorem pieces_mark (mark : Char) (cs : List Char) :
    pieces mark (mark :: cs) = [] :: pieces mark cs := by
  simp [pieces]

theorem pieces_other {mark c : Char} (hc : c ≠ mark) {cs w : List Char} {ws : List (List Char)}
    (h : pieces mark cs = w :: ws) : pieces mark (c :: cs) = (c :: w) :: ws := by
  simp [pieces, hc, h]

theorem mark_notMem_pieces {mark : Char} {cs w : List Char} (h : w ∈ pieces mark cs) :
    mark ∉ w := by
  induction cs generalizing w with
  | nil => simp [List.mem_singleton.1 h]
  | cons c cs ih =>
    by_cases hc : c = mark
    · rw [hc, pieces_mark] at h
      obtain rfl | h := List.mem_cons.1 h
      · exact List.not_mem_nil
      · exact ih h
    · obtain ⟨v, vs, hv⟩ := List.exists_cons_of_ne_nil (pieces_ne_nil mark cs)
      rw [pieces_other hc hv] at h
      obtain rfl | h := List.mem_cons.1 h
      · have hmark : mark ∉ v := ih (hv ▸ List.mem_cons_self)
        exact fun hmem => (List.mem_cons.1 hmem).elim (fun he => hc he.symm) hmark
      · exact ih (hv ▸ List.mem_cons_of_mem _ h)

theorem pieces_of_notMem {mark : Char} {w : List Char} (hw : mark ∉ w) : pieces mark w = [w] := by
  induction w with
  | nil => rfl
  | cons c w ih =>
    obtain ⟨hc, hw⟩ := not_or.1 fun h => hw (List.mem_cons.2 h)
    exact pieces_other (Ne.symm hc) (ih hw)

theorem pieces_append_mark {mark : Char} {w : List Char} (hw : mark ∉ w) (cs : List Char) :
    pieces mark (w ++ mark :: cs) = w :: pieces mark cs := by
  induction w with
  | nil => exact pieces_mark mark cs
  | cons c w ih =>
    obtain ⟨hc, hw⟩ := not_or.1 fun h => hw (List.mem_cons.2 h)
    exact pieces_other (Ne.symm hc) (ih hw)

end CachedCalls.Text
