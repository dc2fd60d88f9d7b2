import CachedCalls.Source.Pattern

/-!
The texts that a pattern fits are those that have any text in place of each star. Each piece between
the stars is taken where it first stands and no other place is tried; this misses nothing, as what
can follow the piece at a later place can follow it at the first one too, after a longer gap.
-/

set_option autoImplicit false

namespace CachedCalls.Pattern

open CachedCalls.Text

/-- The pieces in order, with a gap in front of each but the first. -/
def filled (w : List Char) (gaps ws : List (List Char)) : List Char :=
  w ++ (List.zipWith (· ++ ·) gaps ws).flatten

/-- The text is made of the pieces of the pattern, with any text where the pattern has a star. -/
def Matches (p t : String) : Prop :=
  ∃ w gaps ws, (∀ v ∈ w :: ws, '*' ∉ v) ∧ gaps.length = ws.length ∧
    p.toList = filled w (List.replicate ws.length ['*']) ws ∧ t.toList = filled w gaps ws

theorem filled_cons (w g : List Char) (gaps : List (List Char)) (v : List Char)
    (ws : List (List Char)) : filled w (g :: gaps) (v :: ws) = w ++ (g ++ filled v gaps ws) := by
  simp [filled]

theorem filled_replicate (m w : List Char) (ws : List (List Char)) :
    filled w (List.replicate ws.length m) ws = m.intercalate (w :: ws) := by
  induction ws generalizing w with
  | nil => simp [filled, List.intercalate]
  | cons v ws ih =>
    rw [List.length_cons, List.replicate_succ, filled_cons, ih]
    simp [List.intercalate]

theorem pieces_filled {mark : Char} {w : List Char} {ws : List (List Char)}
    (h : ∀ v ∈ w :: ws, mark ∉ v) :
    pieces mark (filled w (List.replicate ws.length [mark]) ws) = w :: ws := by
  induction ws generalizing w with
  | nil =>
    have hw : mark ∉ w := h w List.mem_cons_self
    simpa [filled] using pieces_of_notMem hw
  | cons v ws ih =>
    have hw : mark ∉ w := h w List.mem_cons_self
    rw [List.length_cons, List.replicate_succ, filled_cons, List.singleton_append,
      pieces_append_mark hw, ih fun u hu => h u (List.mem_cons_of_mem _ hu)]

theorem filled_pieces {p : String} {w : List Char} {ws : List (List Char)}
    (h : pieces '*' p.toList = w :: ws) :
    p.toList = filled w (List.replicate ws.length ['*']) ws := by
  rw [filled_replicate, ← h, intercalate_pieces]

theorem matches_iff {p t : String} {w : List Char} {ws : List (List Char)}
    (h : pieces '*' p.toList = w :: ws) :
    Matches p t ↔ ∃ gaps, gaps.length = ws.length ∧ t.toList = filled w gaps ws := by
  constructor
  · rintro ⟨v, gaps, vs, hmark, hlen, hp, ht⟩
    rw [hp, pieces_filled hmark] at h
    cases h
    exact ⟨gaps, hlen, ht⟩
  · rintro ⟨gaps, hlen, ht⟩
    exact ⟨w, gaps, ws, fun v hv => mark_notMem_pieces (h ▸ hv), hlen, filled_pieces h, ht⟩

theorem afterPrefix?_eq_some {w t r : List Char} : afterPrefix? w t = some r ↔ t = w ++ r := by
  unfold afterPrefix?
  constructor
  · intro h
    split at h
    · next hw =>
      obtain ⟨s, rfl⟩ := List.isPrefixOf_iff_prefix.1 hw
      rw [List.drop_left] at h
      rw [Option.some.inj h]
    · cases h
  · rintro rfl
    rw [if_pos (List.isPrefixOf_iff_prefix.2 (List.prefix_append w r)), List.drop_left]

theorem afterFirst?_sound {w t r : List Char} (h : afterFirst? w t = some r) :
    ∃ g, t = g ++ (w ++ r) := by
  induction t with
  | nil =>
    have hstart : [] = w ++ r := afterPrefix?_eq_some.1 h
    exact ⟨[], hstart⟩
  | cons c cs ih =>
    rw [afterFirst?] at h
    obtain h | ⟨-, h⟩ := Option.or_eq_some_iff.1 h
    · have hstart : c :: cs = w ++ r := afterPrefix?_eq_some.1 h
      exact ⟨[], hstart⟩
    · obtain ⟨g, hg⟩ := ih h
      exact ⟨c :: g, congrArg (c :: ·) hg⟩

theorem afterFirst?_of_start {w t r : List Char} (h : afterPrefix? w t = some r) :
    afterFirst? w t = some r := by
  cases t with
  | nil => exact h
  | cons c cs => rw [afterFirst?, h, Option.some_or]

theorem suffix_of_start {w s g r : List Char} (h : g ++ (w ++ r) = w ++ s) : ∃ u, s = u ++ r := by
  have hr : r <:+ w ++ s := h ▸ ⟨g ++ w, List.append_assoc g w r⟩
  have hlen : r.length ≤ s.length := by
    have hsum := congrArg List.length h
    simp only [List.length_append] at hsum
    omega
  obtain ⟨u, hu⟩ := List.suffix_of_suffix_length_le hr (List.suffix_append w s) hlen
  exact ⟨u, hu.symm⟩

theorem afterFirst?_first (w g r : List Char) :
    ∃ u, afterFirst? w (g ++ (w ++ r)) = some (u ++ r) := by
  induction g with
  | nil => exact ⟨[], afterFirst?_of_start (afterPrefix?_eq_some.2 rfl)⟩
  | cons c g ih =>
    cases hstart : afterPrefix? w (c :: g ++ (w ++ r)) with
    | some s =>
      obtain ⟨u, rfl⟩ := suffix_of_start (afterPrefix?_eq_some.1 hstart)
      exact ⟨u, afterFirst?_of_start hstart⟩
    | none =>
      obtain ⟨u, hu⟩ := ih
      refine ⟨u, ?_⟩
      rw [List.cons_append] at hstart ⊢
      rw [afterFirst?, hstart, Option.none_or, hu]

/-- Each piece comes some way after the one before it, and the text ends with the last. -/
def Follow : List (List Char) → List Char → Prop
  | [], t => t = []
  | w :: ws, t => ∃ g r, t = g ++ (w ++ r) ∧ Follow ws r

theorem follow_iff {ws : List (List Char)} {t : List Char} : Follow ws t ↔
    ∃ gaps : List (List Char), gaps.length = ws.length ∧
      t = (List.zipWith (· ++ ·) gaps ws).flatten := by
  induction ws generalizing t with
  | nil =>
    constructor
    · rintro rfl
      exact ⟨[], rfl, rfl⟩
    · rintro ⟨gaps, -, ht⟩
      rwa [List.zipWith_nil_right] at ht
  | cons w ws ih =>
    constructor
    · rintro ⟨g, r, rfl, hr⟩
      obtain ⟨gaps, hlen, rfl⟩ := ih.1 hr
      refine ⟨g :: gaps, congrArg Nat.succ hlen, ?_⟩
      rw [List.zipWith_cons_cons, List.flatten_cons, List.append_assoc]
    · rintro ⟨gaps, hlen, rfl⟩
      obtain ⟨g, gaps, rfl⟩ := List.exists_cons_of_length_eq_add_one hlen
      refine ⟨g, _, ?_, ih.2 ⟨gaps, Nat.succ.inj hlen, rfl⟩⟩
      rw [List.zipWith_cons_cons, List.flatten_cons, List.append_assoc]

theorem Follow.lengthen {w : List Char} {ws : List (List Char)} {t : List Char}
    (h : Follow (w :: ws) t) (u : List Char) : Follow (w :: ws) (u ++ t) := by
  obtain ⟨g, r, rfl, hr⟩ := h
  exact ⟨u ++ g, r, (List.append_assoc u g _).symm, hr⟩

/-- To take each piece at its first place misses no way to place them all. -/
theorem fitsRest_iff (ws : List (List Char)) (t : List Char) :
    fitsRest ws t = true ↔ Follow ws t := by
  fun_induction fitsRest ws t with
  | case1 t => exact List.isEmpty_iff
  | case2 w t =>
    rw [List.isSuffixOf_iff_suffix]
    constructor
    · rintro ⟨g, rfl⟩
      exact ⟨g, [], by rw [List.append_nil], rfl⟩
    · rintro ⟨g, r, rfl, hr⟩
      cases hr
      exact ⟨g, by rw [List.append_nil]⟩
  | case3 w ws t hws s hs ih =>
    obtain ⟨v, vs, rfl⟩ := List.exists_cons_of_ne_nil hws
    rw [ih]
    constructor
    · intro h
      obtain ⟨g, rfl⟩ := afterFirst?_sound hs
      exact ⟨g, s, rfl, h⟩
    · rintro ⟨g, r, rfl, hr⟩
      obtain ⟨u, hu⟩ := afterFirst?_first w g r
      cases hs.symm.trans hu
      exact hr.lengthen u
  | case4 w ws t hws hs =>
    refine iff_of_false (fun h => by cases h) ?_
    rintro ⟨g, r, rfl, -⟩
    obtain ⟨u, hu⟩ := afterFirst?_first w g r
    cases hs.symm.trans hu

theorem filled_nil (w : List Char) (gaps : List (List Char)) : filled w gaps [] = w := by
  simp [filled]

theorem fits_iff_matches (p t : String) : fits p t = true ↔ Matches p t := by
  obtain ⟨w, ws, h⟩ := List.exists_cons_of_ne_nil (pieces_ne_nil '*' p.toList)
  rw [matches_iff h]
  unfold fits
  rw [h]
  cases ws with
  | nil =>
    simp only [filled_nil, beq_iff_eq, List.length_nil, List.length_eq_zero_iff,
      exists_eq_left]
    exact eq_comm
  | cons v ws =>
    dsimp only
    cases hstart : afterPrefix? w t.toList with
    | none =>
      refine iff_of_false Bool.false_ne_true ?_
      rintro ⟨gaps, -, ht⟩
      rw [afterPrefix?_eq_some.2 ht] at hstart
      cases hstart
    | some s =>
      have hs : t.toList = w ++ s := afterPrefix?_eq_some.1 hstart
      rw [hs]
      simp only [filled, List.append_cancel_left_eq]
      exact (fitsRest_iff (v :: ws) s).trans follow_iff

/-- The pieces stand in the text one after the other, none before the place `i`. -/
def Apart (t : List Char) : Nat → List (List Char) → Prop
  | _, [] => True
  | i, w :: ws => ∃ j, i ≤ j ∧ w <+: t.drop j ∧ Apart t (j + w.length) ws

theorem apart_of_follow {ws : List (List Char)} {s : List Char} (h : Follow ws s)
    (front : List Char) : Apart (front ++ s) front.length ws := by
  induction ws generalizing s front with
  | nil => exact trivial
  | cons w ws ih =>
    obtain ⟨g, r, rfl, hr⟩ := h
    refine ⟨(front ++ g).length, ?_, ?_, ?_⟩
    · rw [List.length_append]
      exact Nat.le_add_right _ _
    · rw [← List.append_assoc, List.drop_left]
      exact List.prefix_append w r
    · have hnext := ih hr (front ++ g ++ w)
      simpa only [List.append_assoc, List.length_append, Nat.add_assoc] using hnext

theorem apart_of_matches {p t : String} (h : Matches p t) :
    Apart t.toList 0 (pieces '*' p.toList) := by
  obtain ⟨w, ws, hw⟩ := List.exists_cons_of_ne_nil (pieces_ne_nil '*' p.toList)
  obtain ⟨gaps, hlen, ht⟩ := (matches_iff hw).1 h
  rw [hw, ht, filled]
  refine ⟨0, Nat.le_refl 0, List.prefix_append _ _, ?_⟩
  rw [Nat.zero_add]
  exact apart_of_follow (follow_iff.2 ⟨gaps, hlen, rfl⟩) w

theorem matches_plain {p : String} (hp : '*' ∉ p.toList) (t : String) : Matches p t ↔ t = p := by
  rw [matches_iff (pieces_of_notMem hp)]
  simp only [filled_nil, List.length_nil, List.length_eq_zero_iff, exists_eq_left]
  exact String.toList_inj

/-- A pattern fits exactly the texts that have any text in place of each of its stars. So a pattern
    without a star fits itself only, and the pieces of a pattern never overlap. -/
theorem fits_exactly (p t : String) :
    (fits p t = true ↔ ∃ w gaps ws, (∀ v ∈ w :: ws, '*' ∉ v) ∧ gaps.length = ws.length ∧
      p.toList = filled w (List.replicate ws.length ['*']) ws ∧ t.toList = filled w gaps ws) ∧
      ('*' ∉ p.toList → (fits p t = true ↔ t = p)) ∧
      (fits p t = true → Apart t.toList 0 (pieces '*' p.toList)) :=
  ⟨fits_iff_matches p t, fun hp => (fits_iff_matches p t).trans (matches_plain hp t),
    fun h => apart_of_matches ((fits_iff_matches p t).1 h)⟩

example : fits "ab*ba" "aba" = false := rfl

end CachedCalls.Pattern
