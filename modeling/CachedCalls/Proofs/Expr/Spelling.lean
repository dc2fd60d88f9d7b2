import CachedCalls.Proofs.Expr.Accepted
import CachedCalls.Proofs.Expr.Variables
import Mathlib.Algebra.Group.Nat.Defs

set_option autoImplicit false

namespace CachedCalls.Expr

open CachedCalls.Text

def Sign.symbol : Sign → List Char
  | .lparen => ['('] | .rparen => [')']
  | .lbracket => ['['] | .rbracket => [']']
  | .lbrace => ['\x7b'] | .rbrace => ['\x7d']
  | .comma => [','] | .dot => ['.'] | .safeDot => ['?', '.']
  | .question => ['?'] | .elvis => ['?', ':'] | .colon => [':']
  | .plus => ['+'] | .minus => ['-'] | .star => ['*'] | .slash => ['/'] | .percent => ['%']
  | .eq => ['=', '='] | .ne => ['!', '='] | .lt => ['<'] | .le => ['<', '=']
  | .gt => ['>'] | .ge => ['>', '='] | .and => ['&', '&'] | .or => ['|', '|'] | .not => ['!']

def Sign.word? : Sign → Option String
  | .and => some "and" | .or => some "or" | .not => some "not"
  | .eq => some "eq" | .ne => some "ne" | .lt => some "lt" | .le => some "le"
  | .gt => some "gt" | .ge => some "ge" | .slash => some "div" | .percent => some "mod"
  | _ => none

def doubled (q : Char) (cs : List Char) : List Char :=
  cs.flatMap fun c => if c = q then [q, q] else [c]

/-- The ways to write a token. -/
inductive Spells : Token → List Char → Prop where
  | int {n : Nat} {mark : List Char} : n < 2 ^ 63 → mark ∈ [[], ['l'], ['L']] →
      Spells (.int n) (Nat.toDigits 10 n ++ mark)
  | text {q : Char} (s : String) : q = '\'' ∨ q = '"' →
      Spells (.text s) (q :: (doubled q s.toList ++ [q]))
  | var {s : String} : s.toList ≠ [] → (∀ c ∈ s.toList, isNameChar c = true) →
      Spells (.var s) ('#' :: s.toList)
  | name {s : String} {c : Char} {w : List Char} : s.toList = c :: w →
      isLetter c = true ∨ c = '_' → (∀ d ∈ w, isNameChar d = true) →
      (∀ g : Sign, g.word? ≠ some s.toLower) → Spells (.name s) (c :: w)
  | symbol (g : Sign) : Spells (.sign g) g.symbol
  | word {g : Sign} {s : String} : g.word? = some s.toLower → Spells (.sign g) s.toList

def marks : List Char :=
  ['(', ')', '[', ']', '\x7b', '\x7d', ',', '.', ':', '+', '-', '*', '/', '%', '?', '=', '!', '<',
    '>', '&', '|', '\'', '"', '#']

theorem kinds_of_mark {c : Char} (h : c ∈ marks) : isSpace c = false ∧ isNameChar c = false := by
  have hall : marks.all (fun c => !isSpace c && !isNameChar c) = true := by decide
  simpa using List.all_eq_true.1 hall c h

theorem codes_of_digit {c : Char} (h : Number.isDigit c = true) :
    48 ≤ c.toNat ∧ c.toNat < 58 := by
  simpa [Number.isDigit, Char.le_def, UInt32.le_iff_toNat_le, Nat.lt_succ_iff] using h

theorem kinds_of_digit {c : Char} (h : Number.isDigit c = true) :
    isLetter c = false ∧ isNameChar c = true := by
  have hall : ∀ n < 58, 48 ≤ n → alphabetic.covers n = false ∧ numeric.covers n = true := by decide
  obtain ⟨hlow, hhigh⟩ := codes_of_digit h
  obtain ⟨hletter, hnumber⟩ := hall c.toNat hhigh hlow
  exact ⟨hletter, by simp [isNameChar, hnumber]⟩

theorem isLetter_of_toLower {c : Char} (h : 'a' ≤ c.toLower ∧ c.toLower ≤ 'z') :
    isLetter c = true := by
  have hall : ∀ n < 123, (65 ≤ n ∧ n ≤ 90) ∨ 97 ≤ n → alphabetic.covers n = true := by decide
  have hcode : c.toNat < 123 ∧ ((65 ≤ c.toNat ∧ c.toNat ≤ 90) ∨ 97 ≤ c.toNat) := by
    delta Char.toLower at h
    simp only [Char.le_def] at h
    split at h
    · next hc =>
      simp [UInt32.le_iff_toNat_le] at hc
      omega
    · simp [UInt32.le_iff_toNat_le] at h
      omega
  exact hall c.toNat hcode.1 hcode.2

theorem isNameChar_of_start {c : Char} (h : isLetter c = true ∨ c = '_') : isNameChar c = true := by
  rcases h with h | rfl
  · have h : alphabetic.covers c.toNat = true := h
    simp [isNameChar, h]
  · decide

theorem isNameChar_of_space {c : Char} (h : isSpace c = true) : isNameChar c = false := by
  have hall : ∀ n ∈ [9, 10, 11, 12, 13, 32, 133, 160, 5760, 8192, 8193, 8194, 8195, 8196, 8197,
      8198, 8199, 8200, 8201, 8202, 8232, 8233, 8239, 8287, 12288],
      (alphabetic.covers n || numeric.covers n) = false := by decide +kernel
  have hcode : (alphabetic.covers c.toNat || numeric.covers c.toNat) = false := by
    refine hall c.toNat ?_
    simp [isSpace, whiteSpace, CharSet.covers] at h
    simp only [List.mem_cons, List.not_mem_nil, or_false]
    omega
  have hline : c ≠ '_' := by
    rintro rfl
    cases h
  simp [isNameChar, hcode, hline]

theorem notMem_marks {c : Char} (h : isNameChar c = true) : c ∉ marks := fun hc =>
  Bool.false_ne_true ((kinds_of_mark hc).2.symm.trans h)

theorem ne_space {c : Char} (h : isNameChar c = true) : isSpace c = false :=
  Bool.eq_false_iff.2 fun hs => Bool.false_ne_true ((isNameChar_of_space hs).symm.trans h)

/-- Nothing comes next, or white space does. -/
def Gap (r : List Char) : Prop := ∀ d ∈ r.head?, isSpace d = true

section Gap

variable {r : List Char} (hr : Gap r)

include hr

theorem Gap.isNameChar : ∀ d ∈ r.head?, isNameChar d = false :=
  fun d hd => isNameChar_of_space (hr d hd)

theorem Gap.ne_mark {x : Char} (hx : x ∈ marks) : r.head? ≠ some x := fun h =>
  Bool.false_ne_true ((kinds_of_mark hx).1.symm.trans (hr x h))

theorem Gap.isDigit : ∀ d ∈ r.head?, Number.isDigit d = false := fun d hd =>
  Bool.eq_false_iff.2 fun h =>
    Bool.false_ne_true ((hr.isNameChar d hd).symm.trans (kinds_of_digit h).2)

theorem Gap.isLongMark : isLongMark r = false := by
  cases r with
  | nil => rfl
  | cons d r =>
    have hd : Text.isNameChar d = false := hr.isNameChar d rfl
    have hne : d ≠ 'L' ∧ d ≠ 'l' := by
      constructor <;> rintro rfl <;> exact absurd hd (by decide)
    simp [Expr.isLongMark, hne]

theorem Gap.pointDigits : pointDigits r = [] := by
  unfold Expr.pointDigits
  split
  · exact absurd rfl (hr.ne_mark (x := '.') (by decide))
  · rfl

end Gap

theorem run_ended {q : Char → Bool} {w r : List Char} (hw : ∀ c ∈ w, q c = true)
    (hr : ∀ c ∈ r.head?, q c = false) : (w ++ r).takeWhile q = w ∧ (w ++ r).dropWhile q = r := by
  rw [List.takeWhile_append_of_pos hw, List.dropWhile_append_of_pos hw]
  cases r with
  | nil => simp
  | cons c r => simp [hr c rfl]

theorem signAt_eq_none {c : Char} (d : Option Char) (h : c ∉ marks) : signAt c d = none := by
  unfold signAt
  split <;> first | rfl | exact absurd (by decide) h

theorem signAt_symbol (g : Sign) {r : List Char} (hr : Gap r) :
    ∃ c w, g.symbol = c :: w ∧ c ∈ marks ∧ signAt c (w ++ r).head? = some (g, w.length) := by
  have hdot := hr.ne_mark (x := '.') (by decide)
  have hcolon := hr.ne_mark (x := ':') (by decide)
  have heq := hr.ne_mark (x := '=') (by decide)
  cases g with
  | question | not | lt | gt =>
    refine ⟨_, _, rfl, by decide, ?_⟩
    rw [List.nil_append, List.length_nil]
    unfold signAt
    split <;> simp_all
  | _ => exact ⟨_, _, rfl, by decide, rfl⟩

theorem signAt_quote {q : Char} (hq : q = '\'' ∨ q = '"' ∨ q = '#') (d : Option Char) :
    signAt q d = none := by
  unfold signAt
  rcases hq with rfl | rfl | rfl <;> split <;> first | rfl | contradiction

theorem quotedRest_doubled {q : Char} (hq : q ∈ marks) (cs : List Char) {r : List Char}
    (hr : Gap r) :
    quotedRest q (doubled q cs ++ (q :: r)) = some (cs, (doubled q cs).length + 1) := by
  induction cs with
  | nil =>
    cases r with
    | nil => simp [doubled, quotedRest]
    | cons d r =>
      have hd : d ≠ q := fun h => hr.ne_mark hq (h ▸ rfl)
      simp [doubled, quotedRest, hd]
  | cons c cs ih =>
    by_cases hc : c = q
    · subst hc
      have hpair : doubled c (c :: cs) = c :: c :: doubled c cs := by simp [doubled]
      rw [hpair, List.cons_append, List.cons_append, quotedRest, if_pos rfl, if_pos rfl, ih]
      rfl
    · have hone : doubled q (c :: cs) = c :: doubled q cs := by simp [doubled, hc]
      obtain ⟨d, t, ht⟩ : ∃ d t, doubled q cs ++ (q :: r) = d :: t :=
        List.exists_cons_of_ne_nil (by simp)
      rw [hone, List.cons_append, ht, quotedRest, if_neg hc, ← ht, ih]
      rfl

theorem wordSigns_lookup {k : String} {g : Sign} :
    wordSigns.lookup k = some g ↔ g.word? = some k := by
  constructor
  · intro h
    obtain ⟨l₁, l₂, hl, -⟩ := List.lookup_eq_some_iff.1 h
    have hmem : (k, g) ∈ wordSigns := hl ▸ by simp
    simp only [wordSigns, List.mem_cons, Prod.mk.injEq, List.not_mem_nil, or_false] at hmem
    rcases hmem with ⟨rfl, rfl⟩ | ⟨rfl, rfl⟩ | ⟨rfl, rfl⟩ | ⟨rfl, rfl⟩ | ⟨rfl, rfl⟩ | ⟨rfl, rfl⟩ |
      ⟨rfl, rfl⟩ | ⟨rfl, rfl⟩ | ⟨rfl, rfl⟩ | ⟨rfl, rfl⟩ | ⟨rfl, rfl⟩ <;> rfl
  · intro h
    cases g <;> cases h <;> decide

theorem lexeme_nameChar {c : Char} (hc : isNameChar c = true) (r : List Char) : lexeme c r =
    if Number.isDigit c then numberLexeme c r
    else if isLetter c || c == '_' then
      .ok (wordToken (c :: r.takeWhile isNameChar), (r.takeWhile isNameChar).length)
    else .error (.badChar c) := by
  have hmark : ∀ x ∈ marks, c ≠ x := fun x hx he => notMem_marks hc (he ▸ hx)
  have hquote : ¬ (c = '\'' ∨ c = '"') := not_or.2 ⟨hmark _ (by decide), hmark _ (by decide)⟩
  have hhash : c ≠ '#' := hmark _ (by decide)
  rw [lexeme, signAt_eq_none _ (notMem_marks hc)]
  simp only [if_neg hquote, if_neg hhash]

theorem lexeme_start {c : Char} (hc : isLetter c = true ∨ c = '_') {w r : List Char}
    (hw : ∀ d ∈ w, isNameChar d = true) (hr : Gap r) :
    lexeme c (w ++ r) = .ok (wordToken (c :: w), w.length) := by
  have hdigit : ¬ Number.isDigit c = true := by
    rcases hc with hc | rfl
    · exact fun h => Bool.false_ne_true ((kinds_of_digit h).1.symm.trans hc)
    · decide
  have hstart : (isLetter c || c == '_') = true := by simpa using hc
  rw [lexeme_nameChar (isNameChar_of_start hc), if_neg hdigit, if_pos hstart,
    (run_ended hw hr.isNameChar).1]

theorem digits_ended {mark r : List Char} (hmark : mark ∈ [[], ['l'], ['L']]) (hr : Gap r) :
    (∀ d ∈ (mark ++ r).head?, Number.isDigit d = false) ∧ pointDigits (mark ++ r) = [] ∧
      (if isLongMark (mark ++ r) then 1 else 0) = mark.length := by
  simp only [List.mem_cons, List.not_mem_nil, or_false] at hmark
  rcases hmark with rfl | rfl | rfl
  · rw [List.nil_append, hr.isLongMark]
    exact ⟨hr.isDigit, hr.pointDigits, rfl⟩
  · refine ⟨?_, rfl, rfl⟩
    rintro _ ⟨⟩
    decide
  · refine ⟨?_, rfl, rfl⟩
    rintro _ ⟨⟩
    decide

theorem numberLexeme_digits {c : Char} {ds mark r : List Char} (hds : ∀ d ∈ ds, Number.isDigit d)
    (hn : Number.ofDigits (c :: ds) < 2 ^ 63) (hmark : mark ∈ [[], ['l'], ['L']]) (hr : Gap r) :
    numberLexeme c (ds ++ (mark ++ r)) =
      .ok (.int (Number.ofDigits (c :: ds)), (ds ++ mark).length) := by
  obtain ⟨hend, hpoint, hlong⟩ := digits_ended hmark hr
  obtain ⟨htake, hdrop⟩ := run_ended hds hend
  have hlen : (if isLongMark (mark ++ r) then ds.length + 1 else ds.length) =
      (ds ++ mark).length := by
    rw [List.length_append, ← hlong]
    split <;> rfl
  have hbound : Number.ofDigits (c :: ds) < Number.signBit := hn
  simp only [numberLexeme, htake, hdrop, hpoint, List.isEmpty_nil, ↓reduceIte, hbound,
    List.length_cons, Nat.add_sub_cancel, List.drop_left, hlen]

theorem wordToken_sign {g : Sign} {s : String} (h : g.word? = some s.toLower) :
    wordToken s.toList = .sign g := by
  rw [wordToken, foldWord_toList, wordSigns_lookup.2 h]

theorem wordToken_name {s : String} (h : ∀ g : Sign, g.word? ≠ some s.toLower) :
    wordToken s.toList = .name s := by
  have hlookup : wordSigns.lookup s.toLower = none :=
    Option.eq_none_iff_forall_not_mem.2 fun g hg => h g (wordSigns_lookup.1 hg)
  rw [wordToken, foldWord_toList, hlookup, String.ofList_toList]

theorem word?_letters {g : Sign} {k : String} (h : g.word? = some k) :
    k.toList ≠ [] ∧ ∀ x ∈ k.toList, 'a' ≤ x ∧ x ≤ 'z' := by
  cases g <;> cases h <;> simp

theorem letters_of_word {g : Sign} {s : String} (h : g.word? = some s.toLower) :
    s.toList ≠ [] ∧ ∀ d ∈ s.toList, isLetter d = true := by
  obtain ⟨hne, hletters⟩ := word?_letters h
  have hlower : s.toLower.toList = s.toList.map Char.toLower := String.toList_map
  rw [hlower] at hne hletters
  exact ⟨fun hs => hne (by rw [hs, List.map_nil]),
    fun d hd => isLetter_of_toLower (hletters _ (List.mem_map_of_mem hd))⟩

theorem Spells.lexeme {t : Token} {cs : List Char} (h : Spells t cs) {r : List Char} (hr : Gap r) :
    ∃ c w, cs = c :: w ∧ isSpace c = false ∧ lexeme c (w ++ r) = .ok (t, w.length) := by
  cases h with
  | @int n mark hn hmark =>
    obtain ⟨hne, hdigits, hvalue⟩ := Number.natural?_eq_some_iff.1 (Number.natural?_toDigits n)
    obtain ⟨c, ds, hds⟩ := List.exists_cons_of_ne_nil hne
    rw [hds] at hdigits hvalue
    have hc : Number.isDigit c = true := hdigits c List.mem_cons_self
    refine ⟨c, ds ++ mark, by rw [hds, List.cons_append], ne_space (kinds_of_digit hc).2, ?_⟩
    have hrest : ∀ d ∈ ds, Number.isDigit d = true := fun d hd =>
      hdigits d (List.mem_cons_of_mem c hd)
    rw [lexeme_nameChar (kinds_of_digit hc).2, if_pos hc, List.append_assoc,
      numberLexeme_digits hrest (hvalue ▸ hn) hmark hr, hvalue]
  | @text q s hq =>
    have hmark : q ∈ marks := by rcases hq with rfl | rfl <;> decide
    refine ⟨q, _, rfl, (kinds_of_mark hmark).1, ?_⟩
    rw [Expr.lexeme, signAt_quote (hq.imp_right .inl)]
    simp only [if_pos hq, List.append_assoc, List.singleton_append,
      quotedRest_doubled hmark s.toList hr, String.ofList_toList, List.length_append,
      List.length_singleton]
  | @var s hs hw =>
    refine ⟨'#', _, rfl, by decide, ?_⟩
    have hempty : s.toList.isEmpty = false := by simpa using hs
    rw [Expr.lexeme, signAt_quote (.inr (.inr rfl))]
    simp only [(run_ended hw hr.isNameChar).1, hempty, String.ofList_toList]
    rfl
  | @name s c w hs hc hw hg =>
    refine ⟨c, w, rfl, ne_space (isNameChar_of_start hc), ?_⟩
    rw [lexeme_start hc hw hr, ← hs, wordToken_name hg]
  | symbol g =>
    obtain ⟨c, w, hcs, hc, hsign⟩ := signAt_symbol g hr
    refine ⟨c, w, hcs, (kinds_of_mark hc).1, ?_⟩
    rw [Expr.lexeme, hsign]
  | @word g s hg =>
    obtain ⟨hne, hletters⟩ := letters_of_word hg
    obtain ⟨c, w, hs⟩ := List.exists_cons_of_ne_nil hne
    have hc : isLetter c = true := hletters c (hs ▸ List.mem_cons_self)
    have hw : ∀ d ∈ w, isNameChar d = true := fun d hd =>
      isNameChar_of_start (.inl (hletters d (hs ▸ List.mem_cons_of_mem c hd)))
    refine ⟨c, w, hs, ne_space (isNameChar_of_start (.inl hc)), ?_⟩
    rw [lexeme_start (.inl hc) hw hr, ← hs, wordToken_sign hg]

/-- A token as it stands in a text, and what is between it and the one before. -/
structure Written where
  gap : List Char
  token : Token
  spelling : List Char

def layout (ws : List Written) : List Char := ws.flatMap fun w => w.gap ++ w.spelling

/-- The tokens that are written from the position `p` on, each with its own. -/
def spotsFrom (p : Nat) : List Written → List Spot
  | [] => []
  | w :: ws =>
    ⟨w.token, p + w.gap.length⟩ :: spotsFrom (p + w.gap.length + w.spelling.length) ws

theorem scanFrom_gap (p : Nat) {g : List Char} (hg : ∀ c ∈ g, isSpace c = true)
    (cs : List Char) : scanFrom p (g ++ cs) = scanFrom (p + g.length) cs := by
  induction g generalizing p with
  | nil => rfl
  | cons c g ih =>
    have hc : isSpace c = true := hg c List.mem_cons_self
    have hrest := ih (p + 1) fun d hd => hg d (List.mem_cons_of_mem c hd)
    rw [List.cons_append, scanFrom, if_pos hc, hrest, List.length_cons, Nat.add_right_comm,
      Nat.add_assoc]

theorem scanFrom_spelling (p : Nat) {t : Token} {cs : List Char} (h : Spells t cs) {r : List Char}
    (hr : Gap r) : scanFrom p (cs ++ r) = (scanFrom (p + cs.length) r).map (⟨t, p⟩ :: ·) := by
  obtain ⟨c, w, rfl, hc, hlex⟩ := h.lexeme hr
  rw [List.cons_append, scanFrom, if_neg (Bool.eq_false_iff.1 hc), hlex]
  simp only [List.drop_left, List.length_cons, Nat.add_assoc, Nat.add_comm 1]

theorem gap_layout {ws : List Written} (hspace : ∀ w ∈ ws, ∀ c ∈ w.gap, isSpace c = true)
    (hgap : ∀ w ∈ ws.head?, w.gap ≠ []) {rest : List Char}
    (hrest : ∀ c ∈ rest, isSpace c = true) : Gap (layout ws ++ rest) := by
  intro d hd
  cases ws with
  | nil => exact hrest d (List.mem_of_mem_head? hd)
  | cons w ws =>
    obtain ⟨c, g, hg⟩ := List.exists_cons_of_ne_nil (hgap w rfl)
    have hcd : c = d := by simpa [layout, hg] using hd
    exact hspace w List.mem_cons_self d (by rw [hg, hcd]; exact List.mem_cons_self)

theorem scanFrom_layout (p : Nat) {ws : List Written}
    (hspells : ∀ w ∈ ws, Spells w.token w.spelling)
    (hspace : ∀ w ∈ ws, ∀ c ∈ w.gap, isSpace c = true) (hgaps : ∀ w ∈ ws.tail, w.gap ≠ [])
    {rest : List Char} (hrest : ∀ c ∈ rest, isSpace c = true) :
    scanFrom p (layout ws ++ rest) = .ok (spotsFrom p ws) := by
  induction ws generalizing p with
  | nil =>
    have hall := scanFrom_gap p hrest []
    rw [List.append_nil] at hall
    rw [layout, List.flatMap_nil, List.nil_append, hall, scanFrom, spotsFrom]
  | cons w ws ih =>
    obtain ⟨hw, hws⟩ := List.forall_mem_cons.1 hspells
    obtain ⟨hg, hgs⟩ := List.forall_mem_cons.1 hspace
    have hnext := ih (p + w.gap.length + w.spelling.length) hws hgs
      fun v hv => hgaps v (List.mem_of_mem_tail hv)
    have hr : Gap (layout ws ++ rest) :=
      gap_layout hgs (fun v hv => hgaps v (List.mem_of_mem_head? hv)) hrest
    have hsplit : layout (w :: ws) ++ rest = w.gap ++ (w.spelling ++ (layout ws ++ rest)) := by
      simp [layout]
    rw [hsplit, scanFrom_gap p hg, scanFrom_spelling _ hw hr, hnext, spotsFrom]
    rfl

theorem parse_of_scan {s : String} {ts : List Spot} (h : scan s = .ok ts) :
    parse s = (ofSpots ts).mapError fun f =>
      .syntaxError s (f.position.getD s.toList.length) f.cause := by
  simp only [parse, h]
  cases ofSpots ts <;> rfl

/-- A text is split into the tokens it was written from. What is faulty after the last of them is
    faulty where the text ends. -/
theorem scan_layout {ws : List Written} (hspells : ∀ w ∈ ws, Spells w.token w.spelling)
    (hspace : ∀ w ∈ ws, ∀ c ∈ w.gap, isSpace c = true) (hgaps : ∀ w ∈ ws.tail, w.gap ≠ [])
    {rest : List Char} (hrest : ∀ c ∈ rest, isSpace c = true) {s : String}
    (hs : s.toList = layout ws ++ rest) :
    scan s = .ok (spotsFrom 0 ws) ∧
      parse s = (ofSpots (spotsFrom 0 ws)).mapError fun f =>
        .syntaxError s (f.position.getD (layout ws ++ rest).length) f.cause := by
  have hscan : scan s = .ok (spotsFrom 0 ws) := by
    rw [scan, hs]
    exact scanFrom_layout 0 hspells hspace hgaps hrest
  refine ⟨hscan, ?_⟩
  rw [← hs]
  exact parse_of_scan hscan

def offer : List Written :=
  [⟨[], .var "price", "#price".toList⟩, ⟨[' '], .sign .ge, "gE".toList⟩,
    ⟨[' '], .int 10, "10L".toList⟩, ⟨['\t', ' '], .sign .and, "&&".toList⟩,
    ⟨[' '], .name "owner", "owner".toList⟩, ⟨[' '], .sign .ne, "!=".toList⟩,
    ⟨[' '], .text "Al's", "'Al''s'".toList⟩, ⟨['\n'], .sign .or, "OR".toList⟩]

theorem scan_layout_offer :
    scan "#price gE 10L\t && owner != 'Al''s'\nOR " =
        .ok [⟨.var "price", 0⟩, ⟨.sign .ge, 7⟩, ⟨.int 10, 10⟩, ⟨.sign .and, 15⟩,
          ⟨.name "owner", 18⟩, ⟨.sign .ne, 24⟩, ⟨.text "Al's", 27⟩, ⟨.sign .or, 35⟩] ∧
      parse "#price gE 10L\t && owner != 'Al''s'\nOR " =
        (ofSpots (spotsFrom 0 offer)).mapError fun f =>
          .syntaxError "#price gE 10L\t && owner != 'Al''s'\nOR " (f.position.getD 38) f.cause := by
  have hspells : ∀ w ∈ offer, Spells w.token w.spelling := by
    intro w hw
    simp only [offer, List.mem_cons, List.not_mem_nil, or_false] at hw
    rcases hw with rfl | rfl | rfl | rfl | rfl | rfl | rfl | rfl
    · exact .var (by decide) (List.all_eq_true.1 (by decide +kernel))
    · exact .word (by rw [← foldWord_toList]; decide)
    · exact Spells.int (by decide : 10 < 2 ^ 63) (by decide : ['L'] ∈ [[], ['l'], ['L']])
    · exact .symbol .and
    · refine .name rfl (by decide) (List.all_eq_true.1 (by decide +kernel)) fun g => ?_
      rw [← foldWord_toList]
      cases g <;> decide
    · exact .symbol .ne
    · exact .text (q := '\'') "Al's" (.inl rfl)
    · exact .word (by rw [← foldWord_toList]; decide)
  have hspace : ∀ w ∈ offer, ∀ c ∈ w.gap, isSpace c = true := by
    simp [offer, isSpace, whiteSpace, CharSet.covers]
  have hrest : ∀ c ∈ [' '], isSpace c = true := by simp [isSpace, whiteSpace, CharSet.covers]
  exact scan_layout hspells hspace (by simp [offer]) hrest rfl

end CachedCalls.Expr
