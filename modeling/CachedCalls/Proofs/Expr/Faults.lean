import CachedCalls.Proofs.Expr.Accepted
import CachedCalls.Proofs.Expr.Placing
import Mathlib.Data.List.Basic

/-!
How reading ends. Every part of the parser takes tokens off the front or fails at a token that it
has in front of it, as long as the recursion may go deep enough: 20 calls for each token that is
left, and what the part takes before it comes to the first.
-/

set_option autoImplicit false

namespace CachedCalls.Expr

/-- What the fault's message quotes: a token, or the end of the text. -/
def SyntaxFault.found? : SyntaxFault → Option (Option Token)
  | unexpected t | trailing t | expected _ t | expectedName t => some t
  | _ => none

/-- Whether the fault is noticed once the token that it quotes has been taken. -/
def SyntaxFault.late : SyntaxFault → Bool
  | expectedName _ => true
  | _ => false

/-- The fault quotes a token of the list, or its end, and is placed there or, if it is late, at what
    comes next. -/
def Blames (ts : List Spot) (f : Fault) : Prop :=
  ∃ us, us <:+ ts ∧ f.cause.found? = some (front us) ∧
    f.position = (if f.cause.late then us.tail else us).head?.map (·.position)

/-- Reading takes tokens until fewer than `n` are left, or fails at one of them. -/
def Advances {α : Type} (n : Nat) (ts : List Spot) (x : Reading (α × List Spot)) : Prop :=
  (∀ a r, x = .ok (a, r) → r <:+ ts ∧ r.length < n) ∧ ∀ f, x = .error f → Blames ts f

variable {α β : Type} {n : Nat} {ts : List Spot}

theorem tail_of_front {t : Token} (h : front ts = some t) : ts.tail.length + 1 = ts.length := by
  cases ts with
  | nil => cases h
  | cons s ts => rfl

namespace Advances

theorem done {a : α} (h : ts.length < n) : Advances n ts (.ok (a, ts)) := by
  refine ⟨?_, fun f hf => by cases hf⟩
  rintro _ _ ⟨⟩
  exact ⟨List.suffix_rfl, h⟩

theorem fault {c : SyntaxFault} (hfound : c.found? = some (front ts)) (hlate : c.late = false) :
    Advances n ts (faultAt ts c : Reading (α × List Spot)) := by
  refine ⟨nofun, ?_⟩
  rintro _ ⟨⟩
  exact ⟨ts, List.suffix_rfl, hfound, by simp only [hlate, Bool.false_eq_true, ↓reduceIte]⟩

theorem mono {us : List Spot} {m : Nat} {x : Reading (α × List Spot)} (h : Advances m us x)
    (hus : us <:+ ts) (hmn : m ≤ n) : Advances n ts x := by
  refine ⟨fun a r hr => ?_, fun f hf => ?_⟩
  · obtain ⟨hsuffix, hlen⟩ := h.1 a r hr
    exact ⟨hsuffix.trans hus, Nat.lt_of_lt_of_le hlen hmn⟩
  · obtain ⟨vs, hvs, hfound, hplace⟩ := h.2 f hf
    exact ⟨vs, hvs.trans hus, hfound, hplace⟩

theorem after {t : Token} {x : Reading (α × List Spot)} (h : front ts = some t)
    (hx : ts.tail.length + 1 = ts.length → Advances n ts.tail x) : Advances n ts x :=
  (hx (tail_of_front h)).mono (List.tail_suffix ts) (Nat.le_refl n)

theorem taken {t : Token} {a : α} (h : front ts = some t) :
    Advances ts.length ts (.ok (a, ts.tail)) :=
  after h fun hlen => done (hlen ▸ Nat.lt_succ_self _)

theorem bind {m : Nat} {x : Reading (α × List Spot)}
    {f : α × List Spot → Reading (β × List Spot)} (hx : Advances m ts x)
    (hf : ∀ a r, r.length < m → Advances n r (f (a, r))) : Advances n ts (x >>= f) := by
  cases x with
  | error e => exact ⟨nofun, fun f hf => hx.2 f (by cases hf; rfl)⟩
  | ok y =>
    obtain ⟨hsuffix, hlen⟩ := hx.1 y.1 y.2 rfl
    exact (hf y.1 y.2 hlen).mono hsuffix (Nat.le_refl n)

theorem expect {s : Sign} {f : List Spot → Reading (α × List Spot)}
    (hf : ts.tail.length + 1 = ts.length → Advances n ts.tail (f ts.tail)) :
    Advances n ts (expect s ts >>= f) := by
  unfold Expr.expect
  by_cases h : front ts = some (.sign s)
  · rw [if_pos h]
    exact after h hf
  · rw [if_neg h]
    exact fault rfl rfl

end Advances

theorem memberName_advances (ts : List Spot) : Advances ts.length ts (memberName ts) := by
  unfold memberName
  split
  · next n p r =>
    refine ⟨?_, fun f hf => by cases hf⟩
    rintro _ _ ⟨⟩
    exact ⟨List.suffix_cons _ r, Nat.lt_succ_self _⟩
  · refine ⟨nofun, ?_⟩
    rintro _ ⟨⟩
    exact ⟨ts, List.suffix_rfl, rfl, rfl⟩

theorem Level.looseness_bounds (l : Level) : 2 ≤ l.looseness ∧ l.looseness ≤ 6 := by
  cases l <;> decide

mutual

theorem readExpression_advances (d : Nat) (ts : List Spot) (hd : 20 * ts.length + 13 ≤ d) :
    Advances ts.length ts (readExpression d ts) := by
  match d with
  | 0 => omega
  | d + 1 =>
    rw [readExpression]
    refine (readLevel_advances d .or ts (by simp only [Level.looseness]; omega)).bind fun c r hr => ?_
    dsimp only
    split
    · next h =>
      refine .after h fun hlen => (readExpression_advances d r.tail (by omega)).bind fun y q hq => ?_
      refine .expect fun hlen => (readExpression_advances d q.tail (by omega)).bind fun n q hq => ?_
      exact .done (by omega)
    · split
      · next h =>
        refine .after h fun hlen => (readExpression_advances d r.tail (by omega)).bind ?_
        exact fun f q hq => .done (by omega)
      · exact .done hr

theorem readLevel_advances (d : Nat) (l : Level) (ts : List Spot)
    (hd : 20 * ts.length + 2 * l.looseness ≤ d) : Advances ts.length ts (readLevel d l ts) := by
  have hl := l.looseness_bounds
  match d with
  | 0 => omega
  | d + 1 =>
    rw [readLevel]
    refine (readOperand_advances d l ts (by omega)).bind fun e r hr => ?_
    exact (joinRest_advances d l e r (by omega)).mono List.suffix_rfl (by omega)

theorem readOperand_advances (d : Nat) (l : Level) (ts : List Spot)
    (hd : 20 * ts.length + 2 * l.looseness ≤ d + 1) :
    Advances ts.length ts (readOperand d l ts) := by
  have hl := l.looseness_bounds
  match d with
  | 0 => omega
  | d + 1 =>
    rw [readOperand]
    match l with
    | .or | .and | .relational | .additive =>
      simp only [Level.looseness] at hd
      exact readLevel_advances d _ ts (by simp only [Level.looseness]; omega)
    | .multiplicative =>
      simp only [Level.looseness] at hd
      exact readUnary_advances d ts (by omega)

theorem joinRest_advances (d : Nat) (l : Level) (e : Expr) (ts : List Spot)
    (hd : 20 * ts.length + 1 ≤ d) : Advances (ts.length + 1) ts (joinRest d l e ts) := by
  have hl := l.looseness_bounds
  match d with
  | 0 => omega
  | d + 1 =>
    rw [joinRest]
    split
    · exact .done (Nat.lt_succ_self _)
    · next op r h =>
      obtain ⟨s, hs, rfl, -⟩ := take?_joins h
      refine .after hs fun hlen => (readOperand_advances d l ts.tail (by omega)).bind fun b q hq => ?_
      dsimp only
      split
      · exact (joinRest_advances d l _ q (by omega)).mono List.suffix_rfl (by omega)
      · exact .done (by omega)

theorem readUnary_advances (d : Nat) (ts : List Spot) (hd : 20 * ts.length + 2 ≤ d) :
    Advances ts.length ts (readUnary d ts) := by
  match d with
  | 0 => omega
  | d + 1 =>
    rw [readUnary]
    split
    · next h =>
      refine .after h fun hlen => (readUnary_advances d ts.tail (by omega)).bind fun e r hr => ?_
      exact .done (by omega)
    · next h =>
      refine .after h fun hlen => (readUnary_advances d ts.tail (by omega)).bind fun e r hr => ?_
      exact .done (by omega)
    · next h =>
      refine .after h fun hlen => ?_
      exact (readUnary_advances d ts.tail (by omega)).mono List.suffix_rfl (by omega)
    · refine (readPrimary_advances d ts (by omega)).bind fun e r hr => ?_
      exact (readMembers_advances d e r (by omega)).mono List.suffix_rfl (by omega)

theorem readMembers_advances (d : Nat) (e : Expr) (ts : List Spot)
    (hd : 20 * ts.length + 1 ≤ d) : Advances (ts.length + 1) ts (readMembers d e ts) := by
  match d with
  | 0 => omega
  | d + 1 =>
    rw [readMembers]
    split
    · next h =>
      refine .after h fun hlen => ?_
      exact (readMember_advances d e false ts.tail (by omega)).mono List.suffix_rfl (by omega)
    · next h =>
      refine .after h fun hlen => ?_
      exact (readMember_advances d e true ts.tail (by omega)).mono List.suffix_rfl (by omega)
    · next h =>
      refine .after h fun hlen => (readExpression_advances d ts.tail (by omega)).bind fun i r hr => ?_
      refine .expect fun hlen => ?_
      exact (readMembers_advances d _ r.tail (by omega)).mono List.suffix_rfl (by omega)
    · exact .done (Nat.lt_succ_self _)

theorem readMember_advances (d : Nat) (e : Expr) (safe : Bool) (ts : List Spot)
    (hd : 20 * ts.length + 1 ≤ d) : Advances ts.length ts (readMember d e safe ts) := by
  match d with
  | 0 => omega
  | d + 1 =>
    rw [readMember]
    refine (memberName_advances ts).bind fun n r hr => ?_
    dsimp only
    split
    · next h =>
      refine .after h fun hlen => (readArguments_advances d .rparen r.tail (by omega)).bind ?_
      intro as q hq
      exact (readMembers_advances d _ q (by omega)).mono List.suffix_rfl (by omega)
    · exact (readMembers_advances d _ r (by omega)).mono List.suffix_rfl (by omega)

theorem readArguments_advances (d : Nat) (close : Sign) (ts : List Spot)
    (hd : 20 * ts.length + 15 ≤ d) : Advances ts.length ts (readArguments d close ts) := by
  match d with
  | 0 => omega
  | d + 1 =>
    rw [readArguments]
    split
    · next h => exact .taken h
    · exact readArgumentsRest_advances d close ts (by omega)

theorem readArgumentsRest_advances (d : Nat) (close : Sign) (ts : List Spot)
    (hd : 20 * ts.length + 14 ≤ d) : Advances ts.length ts (readArgumentsRest d close ts) := by
  match d with
  | 0 => omega
  | d + 1 =>
    rw [readArgumentsRest]
    refine (readExpression_advances d ts (by omega)).bind fun e r hr => ?_
    dsimp only
    split
    · next h =>
      refine .after h fun hlen => (readArgumentsRest_advances d close r.tail (by omega)).bind ?_
      exact fun es q hq => .done (by omega)
    · exact .expect fun hlen => .done (by omega)

theorem readPrimary_advances (d : Nat) (ts : List Spot) (hd : 20 * ts.length + 1 ≤ d) :
    Advances ts.length ts (readPrimary d ts) := by
  match d with
  | 0 => omega
  | d + 1 =>
    rw [readPrimary]
    split
    · next h => exact .taken h
    · next h => exact .taken h
    · next h => exact .taken h
    · next h => exact .taken h
    · next h => exact .taken h
    · next h =>
      refine .after h fun hlen => (readExpression_advances d ts.tail (by omega)).bind fun e r hr => ?_
      exact .expect fun hlen => .done (by omega)
    · next h =>
      refine .after h fun hlen => (readArguments_advances d .rbrace ts.tail (by omega)).bind ?_
      exact fun es r hr => .done (by omega)
    · exact .fault rfl rfl

end

theorem ofSpots_blames {f : Fault} (h : ofSpots ts = .error f) : Blames ts f := by
  have hsettles := readExpression_advances (depth ts) ts (by unfold depth; omega)
  unfold ofSpots at h
  split at h
  · next g hread =>
    cases h
    exact hsettles.2 f hread
  · cases h
  · next e r hne hread =>
    have hr := (hsettles.1 e r hread).1
    cases h
    exact ⟨r, hr, rfl, rfl⟩

/-- Where the token with this number starts in the text; behind the last there is its end. -/
def startOf (s : String) (ts : List Spot) (i : Nat) : Nat :=
  (ts[i]?.map (·.position)).getD s.toList.length

theorem startOf_lt {s : String} (h : scan s = .ok ts) {i : Nat} (hi : i < ts.length) :
    startOf s ts i < startOf s ts (i + 1) := by
  obtain ⟨hpairs, hstands⟩ := scan_placed h
  have hstart : startOf s ts i = ts[i].position := by rw [startOf, List.getElem?_eq_getElem hi]; rfl
  rw [hstart]
  by_cases hnext : i + 1 < ts.length
  · have hstart' : startOf s ts (i + 1) = ts[i + 1].position := by
      rw [startOf, List.getElem?_eq_getElem hnext]
      rfl
    rw [hstart']
    exact List.pairwise_iff_getElem.1 hpairs i (i + 1) hi hnext (Nat.lt_succ_self i)
  · rw [startOf, List.getElem?_eq_none (Nat.le_of_not_lt hnext)]
    exact (hstands _ (List.getElem_mem hi)).lt

theorem Blames.numbered {f : Fault} (h : Blames ts f) (s : String) :
    ∃ i ≤ ts.length, f.cause.found? = some (ts[i]?.map (·.token)) ∧
      f.position.getD s.toList.length = startOf s ts (if f.cause.late then i + 1 else i) := by
  obtain ⟨us, ⟨vs, rfl⟩, hfound, hplace⟩ := h
  have hhead : us.head? = (vs ++ us)[vs.length]? := by
    rw [List.getElem?_append_right (Nat.le_refl _), Nat.sub_self, List.head?_eq_getElem?]
  have hnext : us.tail.head? = (vs ++ us)[vs.length + 1]? := by
    rw [List.getElem?_append_right (Nat.le_add_right _ 1), Nat.add_sub_cancel_left,
      List.head?_eq_getElem?, List.getElem?_tail]
  refine ⟨vs.length, by simp, by rw [hfound, front, hhead], ?_⟩
  rw [hplace, startOf]
  split
  · rw [hnext]
  · rw [hhead]

theorem message_found {c : SyntaxFault} {t : Option Token} (h : c.found? = some t) :
    ∃ lead, c.message = lead ++ foundLabel t := by
  cases c <;> cases h <;> exact ⟨_, rfl⟩

/-- If a text is split into tokens that are no expression, the message quotes one of the tokens, or
    the end, and the position is the start of that very one. Only where a name was expected and
    another token was found, the position is where the next one starts. -/
theorem parse_blames {s : String} {e : ExprError} (hscan : scan s = .ok ts)
    (h : parse s = .error e) :
    (∀ x ∈ ts, x.StandsIn s.toList) ∧ ∃ i ≤ ts.length, ∃ p c lead,
      e = .syntaxError s p c ∧ c.found? = some (ts[i]?.map (·.token)) ∧
      c.message = lead ++ foundLabel (ts[i]?.map (·.token)) ∧
      (c.late = false ∨ i = ts.length → p = startOf s ts i) ∧
      (c.late = true → i < ts.length → startOf s ts i < p ∧ p = startOf s ts (i + 1)) := by
  refine ⟨(scan_placed hscan).2, ?_⟩
  obtain ⟨f, hf, he⟩ : ∃ f, ofSpots ts = .error f ∧
      e = .syntaxError s (f.position.getD s.toList.length) f.cause := by
    unfold parse at h
    rw [hscan] at h
    dsimp only at h
    split at h
    · next f hf =>
      cases h
      exact ⟨f, hf, rfl⟩
    · cases h
  obtain ⟨i, hi, hfound, hplace⟩ := (ofSpots_blames hf).numbered s
  obtain ⟨lead, hlead⟩ := message_found hfound
  refine ⟨i, hi, _, f.cause, lead, he, hfound, hlead, fun hsame => ?_, fun hlate hlt => ?_⟩
  · rw [hplace]
    obtain hearly | rfl := hsame
    · rw [hearly]
      rfl
    · split
      · rw [startOf, startOf, List.getElem?_eq_none (Nat.le_succ _),
          List.getElem?_eq_none (Nat.le_refl _)]
      · rfl
  · rw [hplace, if_pos hlate]
    exact ⟨startOf_lt hscan hlt, rfl⟩

def unopened : List Spot :=
  [⟨.int 3, 0⟩, ⟨.sign .star, 2⟩, ⟨.sign .rparen, 4⟩, ⟨.sign .minus, 6⟩, ⟨.int 2, 8⟩]

theorem parse_blames_unopened : ∃ i ≤ unopened.length, ∃ p c,
    parse "3 * ) - 2" = .error (.syntaxError "3 * ) - 2" p c) ∧
      c.found? = some (unopened[i]?.map (·.token)) ∧ p = startOf "3 * ) - 2" unopened i := by
  have hscan : scan "3 * ) - 2" = .ok unopened := by cbv
  have hparse : parse "3 * ) - 2" =
      .error (.syntaxError "3 * ) - 2" 4 (.unexpected (some (.sign .rparen)))) := by
    rw [parse, hscan]
    rfl
  obtain ⟨-, i, hi, p, c, -, he, hfound, -, hplace, -⟩ := parse_blames hscan hparse
  cases he
  exact ⟨i, hi, 4, _, hparse, hfound, hplace (.inl rfl)⟩

/-- The token that should be a name is passed over before the position is taken. -/
theorem parse_misplaced : scan "\x7b1\x7d.'length' > 0" =
      .ok [⟨.sign .lbrace, 0⟩, ⟨.int 1, 1⟩, ⟨.sign .rbrace, 2⟩, ⟨.sign .dot, 3⟩,
        ⟨.text "length", 4⟩, ⟨.sign .gt, 13⟩, ⟨.int 0, 15⟩] ∧
    parse "\x7b1\x7d.'length' > 0" = .error (.syntaxError "\x7b1\x7d.'length' > 0" 13
      (.expectedName (some (.text "length")))) ∧
    (SyntaxFault.expectedName (some (.text "length"))).message =
      "expected property name, found " ++ Token.label (.text "length") := by
  have hscan : scan "\x7b1\x7d.'length' > 0" = .ok
      [⟨.sign .lbrace, 0⟩, ⟨.int 1, 1⟩, ⟨.sign .rbrace, 2⟩, ⟨.sign .dot, 3⟩, ⟨.text "length", 4⟩,
        ⟨.sign .gt, 13⟩, ⟨.int 0, 15⟩] := by cbv
  refine ⟨hscan, ?_, rfl⟩
  rw [parse, hscan]
  rfl

end CachedCalls.Expr
