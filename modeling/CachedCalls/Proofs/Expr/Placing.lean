import CachedCalls.Expr.Scan

set_option autoImplicit false

namespace CachedCalls.Expr

theorem signAt_taken {c : Char} {d : Option Char} {s : Sign} {n : Nat}
    (h : signAt c d = some (s, n)) : n ≤ d.toList.length := by
  unfold signAt at h
  split at h <;> cases h <;> simp

theorem quotedRest_taken {q : Char} {cs s : List Char} {n : Nat}
    (h : quotedRest q cs = some (s, n)) : n ≤ cs.length := by
  fun_induction quotedRest q cs generalizing s n with
  | case1 => cases h
  | case2 => cases h; simp
  | case3 => cases h
  | case4 r ih =>
    obtain ⟨⟨t, m⟩, hm, hn⟩ := Option.map_eq_some_iff.1 h
    cases hn
    have := ih hm
    simp only [List.length_cons]
    omega
  | case5 => cases h; simp
  | case6 c d r hc ih =>
    obtain ⟨⟨t, m⟩, hm, hn⟩ := Option.map_eq_some_iff.1 h
    cases hn
    have := ih hm
    simp only [List.length_cons] at this ⊢
    omega

def literalOf (whole part : List Char) : List Char :=
  if part.isEmpty then whole else whole ++ '.' :: part

def numberOf (whole part : List Char) : Except SyntaxFault Token :=
  if part.isEmpty then
    if Number.ofDigits whole < Number.signBit then .ok (.int (Number.ofDigits whole))
    else .error (.badNumber (String.ofList (literalOf whole part)))
  else
    let x := Number.nearest false (Number.ofDigits (whole ++ part)) (-(part.length : Int))
    if x.isFinite then .ok (.float x) else .error (.badNumber (String.ofList (literalOf whole part)))

def wholeOf (r : List Char) : List Char := r.takeWhile Number.isDigit

def partOf (r : List Char) : List Char := pointDigits (r.dropWhile Number.isDigit)

theorem numberLexeme_eq (c : Char) (r : List Char) : numberLexeme c r =
    let taken := (literalOf (c :: wholeOf r) (partOf r)).length - 1
    (numberOf (c :: wholeOf r) (partOf r)).map fun t =>
      (t, if isLongMark (r.drop taken) then taken + 1 else taken) := by
  unfold numberLexeme
  simp only [show r.takeWhile Number.isDigit = wholeOf r from rfl,
    show pointDigits (r.dropWhile Number.isDigit) = partOf r from rfl]
  cases hpart : (partOf r).isEmpty <;>
    simp only [numberOf, literalOf, hpart, Bool.false_eq_true, ↓reduceIte] <;> split <;> rfl

theorem pointDigits_cons {us : List Char} (h : pointDigits us ≠ []) :
    ∃ q, us = '.' :: q ∧ pointDigits us = q.takeWhile Number.isDigit := by
  revert h
  unfold pointDigits
  split
  · exact fun _ => ⟨_, rfl, rfl⟩
  · exact fun h => absurd rfl h

theorem literalOf_starts (c : Char) (r : List Char) :
    literalOf (c :: wholeOf r) (partOf r) <+: c :: r := by
  unfold literalOf
  split
  · exact List.cons_prefix_cons.2 ⟨rfl, List.takeWhile_prefix _⟩
  · next h =>
    obtain ⟨q, hq, hdigits⟩ := pointDigits_cons fun hnil => h (by rw [partOf, hnil]; rfl)
    refine ⟨q.dropWhile Number.isDigit, ?_⟩
    rw [partOf, hdigits, List.append_assoc, List.cons_append, List.cons_append,
      List.takeWhile_append_dropWhile, ← hq, wholeOf, List.takeWhile_append_dropWhile]

theorem numberLexeme_taken {c : Char} {r : List Char} {t : Token} {n : Nat}
    (h : numberLexeme c r = .ok (t, n)) : n ≤ r.length := by
  have hlen := (literalOf_starts c r).length_le
  rw [numberLexeme_eq] at h
  generalize (literalOf (c :: wholeOf r) (partOf r)).length = k at h hlen
  obtain ⟨u, -, hu⟩ : ∃ u, numberOf (c :: wholeOf r) (partOf r) = .ok u ∧
      (u, if isLongMark (r.drop (k - 1)) then k - 1 + 1 else k - 1) = (t, n) := by
    cases hnumber : numberOf (c :: wholeOf r) (partOf r) with
    | error f => rw [hnumber] at h; cases h
    | ok u => rw [hnumber] at h; exact ⟨u, rfl, Except.ok.inj h⟩
  cases hu
  simp only [List.length_cons] at hlen
  split
  · next hmark =>
    have hrest : r.drop (k - 1) ≠ [] := fun hnil => by
      rw [hnil] at hmark
      cases hmark
    have hpos := List.length_pos_iff.2 hrest
    rw [List.length_drop] at hpos
    omega
  · omega

theorem lexeme_taken {c : Char} {r : List Char} {t : Token} {n : Nat}
    (h : lexeme c r = .ok (t, n)) : n ≤ r.length := by
  unfold lexeme at h
  split at h
  · next s m hsign =>
    cases h
    have hm := signAt_taken hsign
    cases r with
    | nil => exact hm
    | cons d r => exact Nat.le_trans hm (Nat.succ_le_succ (Nat.zero_le _))
  · split at h
    · split at h
      · next hq =>
        cases h
        exact quotedRest_taken hq
      · cases h
    · split at h
      · dsimp only at h
        split at h <;> cases h
        exact (List.takeWhile_prefix _).length_le
      · split at h
        · exact numberLexeme_taken h
        · split at h <;> cases h
          exact (List.takeWhile_prefix _).length_le

/-- The spot's token is read off the text at its position. -/
def Spot.StandsIn (x : Spot) (cs : List Char) : Prop :=
  ∃ c r n, cs.drop x.position = c :: r ∧ Text.isSpace c = false ∧ lexeme c r = .ok (x.token, n)

theorem Spot.StandsIn.lt {x : Spot} {cs : List Char} (h : x.StandsIn cs) :
    x.position < cs.length := by
  obtain ⟨c, r, n, hdrop, -⟩ := h
  have hlen := congrArg List.length hdrop
  simp only [List.length_drop, List.length_cons] at hlen
  omega

theorem scanFrom_placed {cs : List Char} (p : Nat) {us : List Char} {ts : List Spot}
    (hus : cs.drop p = us) (h : scanFrom p us = .ok ts) :
    ts.Pairwise (fun x y => x.position < y.position) ∧
      ∀ x ∈ ts, p ≤ x.position ∧ x.StandsIn cs := by
  fun_induction scanFrom p us generalizing ts with
  | case1 =>
    cases h
    exact ⟨.nil, nofun⟩
  | case2 p c r hc ih =>
    have hr : cs.drop (p + 1) = r := by rw [← List.drop_drop, hus]; rfl
    obtain ⟨hpairs, hall⟩ := ih hr h
    exact ⟨hpairs, fun x hx => ⟨Nat.le_of_succ_le (hall x hx).1, (hall x hx).2⟩⟩
  | case3 => cases h
  | case4 p c r hc t n hlex ih =>
    cases hrest : scanFrom (p + 1 + n) (r.drop n) with
    | error e => rw [hrest] at h; cases h
    | ok vs =>
      rw [hrest] at h
      cases h
      have hr : cs.drop (p + 1 + n) = r.drop n := by
        rw [← List.drop_drop, ← List.drop_drop, hus]
        rfl
      obtain ⟨hpairs, hall⟩ := ih hr hrest
      refine ⟨.cons (fun y hy => ?_) hpairs, List.forall_mem_cons.2 ⟨⟨Nat.le_refl p, ?_⟩, ?_⟩⟩
      · have := (hall y hy).1
        simp only
        omega
      · exact ⟨c, r, n, hus, by simpa using hc, hlex⟩
      · exact fun y hy => ⟨by have := (hall y hy).1; omega, (hall y hy).2⟩

theorem scan_placed {s : String} {ts : List Spot} (h : scan s = .ok ts) :
    ts.Pairwise (fun x y => x.position < y.position) ∧ ∀ x ∈ ts, x.StandsIn s.toList := by
  obtain ⟨hpairs, hall⟩ := scanFrom_placed 0 rfl h
  exact ⟨hpairs, fun x hx => (hall x hx).2⟩

end CachedCalls.Expr
