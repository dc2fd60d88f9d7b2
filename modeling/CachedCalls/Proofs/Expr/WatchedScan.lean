import CachedCalls.Proofs.Expr.Placing
import CachedCalls.Proofs.Expr.Spelling
import CachedCalls.Proofs.Expr.Watched
import Mathlib.Data.List.TakeWhile

set_option autoImplicit false

namespace CachedCalls.Expr

open CachedCalls.Watched

variable {ε : Type}

abbrev Scanning := Watched (Nat × SyntaxFault)

def spanEnd (test : Char → Bool) (cs : List Char) (i : Nat) : Watched ε Nat :=
  if i < cs.length then do
    let c ← item cs i
    if test c then spanEnd test cs (i + 1) else pure i
  else pure i
termination_by cs.length - i

def pointedAt (cs : List Char) (i : Nat) : Watched ε Bool :=
  if i + 1 < cs.length then do
    let c ← item cs i
    if c = '.' then do
      let d ← item cs (i + 1)
      pure (Number.isDigit d)
    else pure false
  else pure false

def markedAt (cs : List Char) (i : Nat) : Watched ε Bool :=
  if i < cs.length then do
    let c ← item cs i
    pure (c == 'L' || c == 'l')
  else pure false

def literalEnd (cs : List Char) (i : Nat) : Watched ε Nat := do
  let whole ← spanEnd Number.isDigit cs i
  let pointed ← pointedAt cs whole
  if pointed then spanEnd Number.isDigit cs (whole + 1) else pure whole

def watchedNumber (cs : List Char) (i : Nat) : Scanning (Token × Nat) := do
  let finish ← literalEnd cs i
  let literal ← slice cs i finish
  let marked ← markedAt cs finish
  let last ← sub (if marked then finish + 1 else finish) 1
  let t ← retell (i, ·) (free (numberOf (literal.takeWhile Number.isDigit)
    (pointDigits (literal.dropWhile Number.isDigit))))
  pure (t, last)

def watchedText (q : Char) (start : Nat) (cs text : List Char) (i : Nat) :
    Scanning (List Char × Nat) :=
  match h : cs[i]? with
  | none => fault (start, .openText)
  | some c =>
    if c = q ∧ cs[i + 1]? = some q then watchedText q start cs (text ++ [q]) (i + 2)
    else if c = q then pure (text, i)
    else watchedText q start cs (text ++ [c]) (i + 1)
termination_by cs.length - i
decreasing_by
  all_goals
    have := (List.getElem?_eq_some_iff.1 h).1
    omega

def watchedLexeme (cs : List Char) (i : Nat) (c : Char) : Scanning (Token × Nat) :=
  match signAt c cs[i + 1]? with
  | some (s, n) => pure (.sign s, i + n)
  | none =>
    if c = '\'' ∨ c = '"' then do
      let (text, last) ← watchedText c i cs [] (i + 1)
      pure (.text (String.ofList text), last)
    else if c = '#' then do
      let rest ← slice cs (i + 1) cs.length
      let w := rest.takeWhile Text.isNameChar
      if w.isEmpty then fault (i, .bareHash) else pure (.var (String.ofList w), i + w.length)
    else if Number.isDigit c then watchedNumber cs i
    else if Text.isLetter c || c == '_' then do
      let rest ← slice cs i cs.length
      let w := rest.takeWhile Text.isNameChar
      let n ← sub w.length 1
      pure (wordToken w, i + n)
    else fault (i, .badChar c)

def watchedScanFrom (cs : List Char) (i : Nat) : Scanning (List Spot) :=
  if i < cs.length then do
    let c ← item cs i
    if Text.isSpace c then watchedScanFrom cs (i + 1)
    else do
      let (t, last) ← watchedLexeme cs i c
      if i ≤ last ∧ last < cs.length then do
        let ts ← watchedScanFrom cs (last + 1)
        pure (⟨t, i⟩ :: ts)
      else stop
  else pure []
termination_by cs.length - i

/-- Tokens with their positions, the last of them the end of the text. -/
abbrev Tape := List (Option Token × Nat)

def tapeOf (ts : List Spot) (finish : Nat) : Tape :=
  ts.map (fun x => (some x.token, x.position)) ++ [(none, finish)]

def watchedScan (s : String) : Scanning Tape := do
  let ts ← watchedScanFrom s.toList 0
  pure (tapeOf ts s.toList.length)

variable {cs r : List Char} {i : Nat} {c : Char}

theorem drop_succ_of_drop (h : cs.drop i = c :: r) : cs.drop (i + 1) = r := by
  rw [← List.drop_drop, h]
  rfl

theorem length_of_drop (h : cs.drop i = c :: r) : i + r.length + 1 = cs.length := by
  have hlen := congrArg List.length h
  simp only [List.length_drop, List.length_cons] at hlen
  omega

theorem spanEnd_eq (test : Char → Bool) {us : List Char} (h : cs.drop i = us) :
    (spanEnd test cs i : Watched ε Nat) = .ok (i + (us.takeWhile test).length) := by
  induction us generalizing i with
  | nil =>
    rw [spanEnd, if_neg (Nat.not_lt.2 (List.drop_eq_nil_iff.1 h))]
    rfl
  | cons c r ih =>
    have hlen := length_of_drop h
    rw [spanEnd, if_pos (by omega), item_of_drop h]
    change (if test c then _ else _) = _
    rw [List.takeWhile_cons]
    split
    · rw [ih (drop_succ_of_drop h), List.length_cons]
      congr 1
      omega
    · rfl

theorem pointedAt_eq {us : List Char} (h : cs.drop i = us) :
    (pointedAt cs i : Watched ε Bool) = .ok !(pointDigits us).isEmpty := by
  unfold pointedAt
  cases us with
  | nil =>
    have := List.drop_eq_nil_iff.1 h
    rw [if_neg (by omega)]
    rfl
  | cons c r =>
    have hlen := length_of_drop h
    cases r with
    | nil =>
      rw [if_neg (by simp only [List.length_nil] at hlen; omega)]
      by_cases hc : c = '.'
      · subst hc
        rfl
      · rw [pointDigits.eq_2 _ (fun _ he => hc (List.cons.inj he).1)]
        rfl
    | cons d r =>
      rw [if_pos (by simp only [List.length_cons] at hlen; omega), item_of_drop h,
        item_of_drop (drop_succ_of_drop h)]
      change (if c = '.' then (.ok (Number.isDigit d) : Watched ε Bool) else .ok false) = _
      by_cases hc : c = '.'
      · subst hc
        rw [if_pos rfl, pointDigits, List.takeWhile_cons]
        cases Number.isDigit d <;> rfl
      · rw [if_neg hc, pointDigits.eq_2 _ (fun _ he => hc (List.cons.inj he).1)]
        rfl

theorem markedAt_eq {us : List Char} (h : cs.drop i = us) :
    (markedAt cs i : Watched ε Bool) = .ok (isLongMark us) := by
  unfold markedAt
  cases us with
  | nil =>
    rw [if_neg (Nat.not_lt.2 (List.drop_eq_nil_iff.1 h))]
    rfl
  | cons c r =>
    have hlen := length_of_drop h
    rw [if_pos (by omega), item_of_drop h]
    rfl

theorem pointDigits_digits {us : List Char} : ∀ d ∈ pointDigits us, Number.isDigit d = true := by
  unfold pointDigits
  split
  · exact fun d hd => List.mem_takeWhile_imp hd
  · exact nofun

theorem literalOf_split {w p : List Char} (hw : ∀ d ∈ w, Number.isDigit d = true)
    (hp : ∀ d ∈ p, Number.isDigit d = true) :
    (literalOf w p).takeWhile Number.isDigit = w ∧
      pointDigits ((literalOf w p).dropWhile Number.isDigit) = p := by
  have hpart : ∀ q : List Char, (∀ d ∈ q, Number.isDigit d = true) →
      q.takeWhile Number.isDigit = q := fun q hq => by
    simpa using (run_ended hq (r := []) nofun).1
  unfold literalOf
  split
  · next hnil =>
    cases List.isEmpty_iff.1 hnil
    obtain ⟨htake, hdrop⟩ := run_ended hw (r := []) nofun
    rw [List.append_nil] at htake hdrop
    exact ⟨htake, by rw [hdrop]; rfl⟩
  · obtain ⟨htake, hdrop⟩ := run_ended hw (r := '.' :: p) (by rintro _ ⟨⟩; decide)
    exact ⟨htake, by rw [hdrop]; exact hpart p hp⟩

theorem drop_takeWhile (q : Char → Bool) (us : List Char) :
    us.drop (us.takeWhile q).length = us.dropWhile q := by
  calc
    us.drop (us.takeWhile q).length
      = (us.takeWhile q ++ us.dropWhile q).drop (us.takeWhile q).length := by
        rw [List.takeWhile_append_dropWhile]
    _ = us.dropWhile q := List.drop_left

theorem literalEnd_eq (h : cs.drop i = c :: r) (hc : Number.isDigit c = true) :
    (literalEnd cs i : Watched ε Nat) =
      .ok (i + (literalOf (c :: wholeOf r) (partOf r)).length) := by
  have hwhole : (c :: r).takeWhile Number.isDigit = c :: wholeOf r := List.takeWhile_cons_of_pos hc
  have hrest : cs.drop (i + (c :: wholeOf r).length) = r.dropWhile Number.isDigit := by
    rw [← List.drop_drop, h, List.length_cons, List.drop_succ_cons, wholeOf, drop_takeWhile]
  rw [literalEnd, spanEnd_eq _ h, hwhole, ok_bind, pointedAt_eq hrest, ok_bind]
  change (if (!(partOf r).isEmpty) = true then _ else _) = _
  unfold literalOf
  cases hpart : (partOf r).isEmpty with
  | true => rfl
  | false =>
    obtain ⟨q, hq, hdigits⟩ := pointDigits_cons fun hnil => by rw [partOf, hnil] at hpart; cases hpart
    change spanEnd Number.isDigit cs (i + (c :: wholeOf r).length + 1) = _
    rw [spanEnd_eq _ (drop_succ_of_drop (hrest.trans hq)), ← hdigits]
    change _ = Except.ok (i + (c :: wholeOf r ++ '.' :: partOf r).length)
    simp only [List.length_append, List.length_cons, partOf]
    congr 1
    omega

theorem watchedNumber_eq (h : cs.drop i = c :: r) (hc : Number.isDigit c = true) :
    watchedNumber cs i =
      free (((numberLexeme c r).map fun x => (x.1, i + x.2)).mapError (i, ·)) := by
  have hlit := literalOf_starts c r
  have hpos : 0 < (literalOf (c :: wholeOf r) (partOf r)).length := by
    unfold literalOf
    split <;> simp
  obtain ⟨hwhole, hpart⟩ := literalOf_split (w := c :: wholeOf r) (p := partOf r)
    (List.forall_mem_cons.2 ⟨hc, fun d hd => List.mem_takeWhile_imp hd⟩) pointDigits_digits
  have hlen := length_of_drop h
  have hle := hlit.length_le
  rw [watchedNumber, literalEnd_eq h hc, ok_bind, numberLexeme_eq]
  generalize hw : literalOf (c :: wholeOf r) (partOf r) = w at *
  rw [slice_of_le (Nat.le_add_right i _) (by simp only [List.length_cons] at hle; omega),
    Nat.add_sub_cancel_left, h, ← List.prefix_iff_eq_take.1 hlit, ok_bind, hwhole, hpart]
  have hmark : cs.drop (i + w.length) = r.drop (w.length - 1) := by
    rw [← List.drop_drop, h]
    cases hk : w.length with
    | zero => omega
    | succ k => rfl
  have hlast : (if isLongMark (r.drop (w.length - 1)) then i + w.length + 1 else i + w.length) - 1 =
      i + (if isLongMark (r.drop (w.length - 1)) then w.length - 1 + 1 else w.length - 1) := by
    split <;> omega
  rw [markedAt_eq hmark, ok_bind, sub_of_le (by split <;> omega), ok_bind, retell_free, hlast]
  cases numberOf (c :: wholeOf r) (partOf r) <;> rfl

section Quoted

variable {q : Char} {start : Nat} {text : List Char}

theorem watchedText_nil (h : cs.drop i = []) :
    watchedText q start cs text i = fault (start, .openText) := by
  have hnone : cs[i]? = none := by rw [← List.head?_drop, h]; rfl
  rw [watchedText]
  split
  · rfl
  · next d hd =>
    rw [hnone] at hd
    cases hd

theorem watchedText_cons (h : cs.drop i = c :: r) :
    watchedText q start cs text i =
      if c = q ∧ r.head? = some q then watchedText q start cs (text ++ [q]) (i + 2)
      else if c = q then .ok (text, i)
      else watchedText q start cs (text ++ [c]) (i + 1) := by
  have hsome : cs[i]? = some c := by rw [← List.head?_drop, h]; rfl
  have hnext : cs[i + 1]? = r.head? := by rw [← List.head?_drop, drop_succ_of_drop h]
  rw [watchedText]
  split
  · next hd =>
    rw [hsome] at hd
    cases hd
  · next d hd =>
    cases hsome.symm.trans hd
    rw [hnext]
    rfl

theorem watchedText_some {us s : List Char} {n : Nat} (h : cs.drop i = us)
    (hs : quotedRest q us = some (s, n)) :
    watchedText q start cs text i = .ok (text ++ s, i + n - 1) := by
  fun_induction quotedRest q us generalizing text i s n with
  | case1 => cases hs
  | case2 =>
    cases hs
    rw [watchedText_cons h, if_neg (by simp), if_pos rfl, List.append_nil]
    rfl
  | case3 => cases hs
  | case4 r ih =>
    obtain ⟨⟨t, m⟩, hm, hsn⟩ := Option.map_eq_some_iff.1 hs
    cases hsn
    rw [watchedText_cons h, if_pos ⟨rfl, rfl⟩, ih (drop_succ_of_drop (drop_succ_of_drop h)) hm,
      List.append_assoc, List.singleton_append]
    congr 2
    omega
  | case5 d r hd =>
    cases hs
    rw [watchedText_cons h, if_neg fun hq => hd (Option.some.inj hq.2), if_pos rfl,
      List.append_nil]
    rfl
  | case6 c d r hc ih =>
    obtain ⟨⟨t, m⟩, hm, hsn⟩ := Option.map_eq_some_iff.1 hs
    cases hsn
    rw [watchedText_cons h, if_neg fun hq => hc hq.1, if_neg hc, ih (drop_succ_of_drop h) hm,
      List.append_assoc, List.singleton_append]
    congr 2
    omega

theorem watchedText_none {us : List Char} (h : cs.drop i = us) (hs : quotedRest q us = none) :
    watchedText q start cs text i = fault (start, .openText) := by
  fun_induction quotedRest q us generalizing text i with
  | case1 => exact watchedText_nil h
  | case2 => cases hs
  | case3 c hc =>
    rw [watchedText_cons h, if_neg fun hq => hc hq.1, if_neg hc,
      watchedText_nil (drop_succ_of_drop h)]
  | case4 r ih =>
    rw [watchedText_cons h, if_pos ⟨rfl, rfl⟩]
    exact ih (drop_succ_of_drop (drop_succ_of_drop h)) (Option.map_eq_none_iff.1 hs)
  | case5 => cases hs
  | case6 c d r hc ih =>
    rw [watchedText_cons h, if_neg fun hq => hc hq.1, if_neg hc]
    exact ih (drop_succ_of_drop h) (Option.map_eq_none_iff.1 hs)

end Quoted

theorem watchedLexeme_eq (h : cs.drop i = c :: r) :
    watchedLexeme cs i c =
      free (((lexeme c r).map fun x => (x.1, i + x.2)).mapError (i, ·)) := by
  have hlen := length_of_drop h
  have hnext : cs[i + 1]? = r.head? := by rw [← List.head?_drop, drop_succ_of_drop h]
  unfold watchedLexeme lexeme
  rw [hnext]
  cases signAt c r.head? with
  | some x => rfl
  | none =>
    dsimp only
    split
    · cases hs : quotedRest c r with
      | none =>
        rw [watchedText_none (drop_succ_of_drop h) hs]
        rfl
      | some x =>
        rw [watchedText_some (drop_succ_of_drop h) hs, List.nil_append, Nat.add_right_comm]
        rfl
    · split
      · rw [slice_of_le (by omega) (Nat.le_refl _), drop_succ_of_drop h,
          List.take_of_length_le (by omega), ok_bind]
        split <;> rfl
      · split
        · next hc => exact watchedNumber_eq h hc
        · split
          · next hc =>
            have hword : (c :: r).takeWhile Text.isNameChar = c :: r.takeWhile Text.isNameChar :=
              List.takeWhile_cons_of_pos (isNameChar_of_start (by simpa using hc))
            rw [slice_of_le (by omega) (Nat.le_refl _), h,
              List.take_of_length_le (by simp only [List.length_cons]; omega), ok_bind, hword]
            rw [List.length_cons, sub_of_le (Nat.succ_le_succ (Nat.zero_le _))]
            rfl
          · rfl

theorem watchedScanFrom_eq {us : List Char} (h : cs.drop i = us) :
    watchedScanFrom cs i = free (scanFrom i us) := by
  fun_induction scanFrom i us with
  | case1 i =>
    rw [watchedScanFrom, if_neg (Nat.not_lt.2 (List.drop_eq_nil_iff.1 h))]
    rfl
  | case2 i c r hc ih =>
    have hlen := length_of_drop h
    rw [watchedScanFrom, if_pos (by omega), item_of_drop h, ok_bind, if_pos hc,
      ih (drop_succ_of_drop h)]
  | case3 i c r hc f hlex =>
    have hlen := length_of_drop h
    rw [watchedScanFrom, if_pos (by omega), item_of_drop h, ok_bind, if_neg hc,
      watchedLexeme_eq h, hlex]
    rfl
  | case4 i c r hc t n hlex ih =>
    have hlen := length_of_drop h
    have hrest : cs.drop (i + 1 + n) = r.drop n := by
      rw [← List.drop_drop, drop_succ_of_drop h]
    rw [watchedScanFrom, if_pos (by omega), item_of_drop h, ok_bind, if_neg hc,
      watchedLexeme_eq h, hlex]
    have htaken := lexeme_taken hlex
    change (if i ≤ i + n ∧ i + n < cs.length then watchedScanFrom cs (i + n + 1) >>= _ else stop) = _
    rw [if_pos (by omega), Nat.add_right_comm, ih hrest]
    cases scanFrom (i + 1 + n) (r.drop n) <;> rfl

theorem watchedScan_eq (s : String) :
    watchedScan s = free ((scan s).map fun ts => tapeOf ts s.toList.length) := by
  rw [watchedScan, watchedScanFrom_eq List.drop_zero, scan]
  cases scanFrom 0 s.toList <;> rfl

end CachedCalls.Expr
