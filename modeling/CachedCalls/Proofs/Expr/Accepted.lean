import CachedCalls.Proofs.Expr.Grammar

set_option autoImplicit false

namespace CachedCalls.Expr

def tokens (ts : List Spot) : List Token := ts.map (·.token)

theorem tokens_of_front {ts : List Spot} {t : Token} (h : front ts = some t) :
    tokens ts = t :: tokens ts.tail := by
  cases ts with
  | nil => cases h
  | cons s ts =>
    cases h
    rfl

variable {α β : Type} {ts : List Spot}

/-- If the reading succeeds, `D` holds of the tokens it took off the front and of what it gives. -/
def Takes (ts : List Spot) (D : List Token → α → Prop) (x : Reading (α × List Spot)) : Prop :=
  ∀ a r, x = .ok (a, r) → ∃ us, tokens ts = us ++ tokens r ∧ D us a

namespace Takes

variable {D : List Token → α → Prop}

theorem fault {us : List Spot} {c : SyntaxFault} : Takes ts D (faultAt us c) := nofun

theorem done {a : α} (h : D [] a) : Takes ts D (.ok (a, ts)) := by
  rintro _ _ ⟨⟩
  exact ⟨[], rfl, h⟩

theorem bind {E : List Token → β → Prop} {x : Reading (α × List Spot)}
    {f : α × List Spot → Reading (β × List Spot)} (hx : Takes ts D x)
    (hf : ∀ a r us, D us a → Takes r (fun vs => E (us ++ vs)) (f (a, r))) :
    Takes ts E (x >>= f) := by
  intro b r h
  cases x with
  | error e => cases h
  | ok y =>
    obtain ⟨us, hus, ha⟩ := hx y.1 y.2 rfl
    obtain ⟨vs, hvs, hb⟩ := hf y.1 y.2 us ha b r h
    exact ⟨us ++ vs, by rw [hus, hvs, List.append_assoc], hb⟩

theorem mono {E : List Token → α → Prop} {x : Reading (α × List Spot)} (hx : Takes ts D x)
    (h : ∀ us a, D us a → E us a) : Takes ts E x := by
  intro a r hr
  obtain ⟨us, hus, ha⟩ := hx a r hr
  exact ⟨us, hus, h us a ha⟩

theorem shift {t : Token} {x : Reading (α × List Spot)} (h : front ts = some t)
    (hx : Takes ts.tail (fun us => D (t :: us)) x) : Takes ts D x := by
  intro a r hr
  obtain ⟨us, hus, ha⟩ := hx a r hr
  exact ⟨t :: us, by rw [tokens_of_front h, hus, List.cons_append], ha⟩

theorem expect {s : Sign} {f : List Spot → Reading (α × List Spot)}
    (hf : Takes ts.tail (fun us => D (.sign s :: us)) (f ts.tail)) :
    Takes ts D (expect s ts >>= f) := by
  unfold Expr.expect
  by_cases h : front ts = some (.sign s)
  · rw [if_pos h]
    exact shift h hf
  · rw [if_neg h]
    exact fault

end Takes

theorem take?_joins {l : Level} {op : BinaryOp} {r : List Spot} (h : l.take? ts = some (op, r)) :
    ∃ s, front ts = some (.sign s) ∧ r = ts.tail ∧ Joins l s op := by
  cases ts with
  | nil => cases h
  | cons t ts =>
    have hfront : front (t :: ts) = some t.token := rfl
    obtain ⟨o, ho, hr⟩ := Option.map_eq_some_iff.1 h
    cases hr
    unfold Level.op? at ho
    split at ho <;> cases ho <;> exact ⟨_, hfront.trans (congrArg some ‹_›), rfl, by constructor⟩

theorem level_repeats {l : Level} : l.repeats = true ↔ l ≠ .relational := by
  cases l <;> decide

theorem foldWord_toList (w : String) : foldWord w.toList = w.toLower := by
  apply String.toList_injective
  rw [foldWord, String.toList_ofList]
  exact String.toList_map.symm

theorem nameExpr_derives (w : String) : Derives .primary [.name w] (nameExpr w) := by
  unfold nameExpr
  rw [foldWord_toList]
  by_cases htrue : w.toLower = "true"
  · rw [if_pos htrue]
    exact .constant (by simp [constants, htrue])
  by_cases hfalse : w.toLower = "false"
  · rw [if_neg htrue, if_pos hfalse]
    exact .constant (by simp [constants, hfalse])
  by_cases hnull : w.toLower = "null"
  · rw [if_neg htrue, if_neg hfalse, if_pos hnull]
    exact .constant (by simp [constants, hnull])
  · rw [if_neg htrue, if_neg hfalse, if_neg hnull]
    exact .name (by simp [constants, htrue, hfalse, hnull])

theorem memberName_takes (ts : List Spot) :
    Takes ts (fun us n => us = [.name n]) (memberName ts) := by
  unfold memberName
  split
  · next n p r =>
    rintro _ _ ⟨⟩
    exact ⟨[.name n], rfl, rfl⟩
  · exact .fault

def DerivesUpTo (close : Sign) (us : List Token) (es : List Expr) : Prop :=
  ∃ vs, us = vs ++ [.sign close] ∧ DerivesAll vs es

mutual

theorem readExpression_takes (d : Nat) (ts : List Spot) :
    Takes ts (Derives .expression) (readExpression d ts) := by
  match d with
  | 0 => exact .fault
  | d + 1 =>
    rw [readExpression]
    refine (readLevel_takes d .or ts).bind fun c r us hc => ?_
    dsimp only
    split
    · next h =>
      refine .shift h ((readExpression_takes d r.tail).bind fun y r vs hy => .expect ?_)
      refine (readExpression_takes d r.tail).bind fun n r ws hn => .done ?_
      simpa using Derives.ternary hc hy hn
    · split
      · next h =>
        refine .shift h ((readExpression_takes d r.tail).bind fun f r vs hf => .done ?_)
        simpa using Derives.elvis hc hf
      · refine .done ?_
        simpa using Derives.plain hc

theorem readLevel_takes (d : Nat) (l : Level) (ts : List Spot) :
    Takes ts (Derives (.level l)) (readLevel d l ts) := by
  match d with
  | 0 => exact .fault
  | d + 1 =>
    rw [readLevel]
    refine (readOperand_takes d l ts).bind fun a r us ha => ?_
    exact joinRest_takes d r (.operand ha) fun _ => ha

theorem readOperand_takes (d : Nat) (l : Level) (ts : List Spot) :
    Takes ts (Derives l.operand) (readOperand d l ts) := by
  match d with
  | 0 => exact .fault
  | d + 1 =>
    rw [readOperand]
    match l with
    | .or | .and | .relational | .additive => exact readLevel_takes d _ ts
    | .multiplicative => exact readUnary_takes d ts

/-- A comparison joins operands only, any other level what it has joined before. -/
theorem joinRest_takes (d : Nat) {l : Level} {a : Expr} {us : List Token} (ts : List Spot)
    (ha : Derives (.level l) us a) (hrel : l = .relational → Derives l.operand us a) :
    Takes ts (fun vs => Derives (.level l) (us ++ vs)) (joinRest d l a ts) := by
  match d with
  | 0 => exact .fault
  | d + 1 =>
    rw [joinRest]
    split
    · refine .done ?_
      simpa using ha
    · next op r h =>
      obtain ⟨s, hs, rfl, hj⟩ := take?_joins h
      refine .shift hs ((readOperand_takes d l ts.tail).bind fun b r vs hb => ?_)
      dsimp only
      split
      · next hl =>
        have hl := level_repeats.1 hl
        simpa using joinRest_takes d r (.join hl hj ha hb) fun h => absurd h hl
      · next hl =>
        cases Decidable.not_not.1 (mt level_repeats.2 hl)
        refine .done ?_
        simpa using Derives.compare hj (hrel rfl) hb

theorem readUnary_takes (d : Nat) (ts : List Spot) :
    Takes ts (Derives .unary) (readUnary d ts) := by
  match d with
  | 0 => exact .fault
  | d + 1 =>
    rw [readUnary]
    split
    · next h =>
      refine .shift h ((readUnary_takes d ts.tail).bind fun e r us he => .done ?_)
      simpa using Derives.not he
    · next h =>
      refine .shift h ((readUnary_takes d ts.tail).bind fun e r us he => .done ?_)
      simpa using Derives.minus he
    · next h => exact .shift h ((readUnary_takes d ts.tail).mono fun us e he => .plus he)
    · refine (readPrimary_takes d ts).bind fun e r us he => ?_
      exact (readMembers_takes d r (.primary he)).mono fun vs e he => .chain he

theorem readMembers_takes (d : Nat) {t : Expr} {us : List Token} (ts : List Spot)
    (ht : Derives .chain us t) :
    Takes ts (fun vs => Derives .chain (us ++ vs)) (readMembers d t ts) := by
  match d with
  | 0 => exact .fault
  | d + 1 =>
    rw [readMembers]
    split
    · next h => exact .shift h (readMember_takes d ts.tail .dot ht)
    · next h => exact .shift h (readMember_takes d ts.tail .safeDot ht)
    · next h =>
      refine .shift h ((readExpression_takes d ts.tail).bind fun i r vs hi => .expect ?_)
      simpa using readMembers_takes d r.tail (.index ht hi)
    · refine .done ?_
      simpa using ht

theorem readMember_takes (d : Nat) {s : Sign} {safe : Bool} {t : Expr} {us : List Token}
    (ts : List Spot) (hs : Reaches s safe) (ht : Derives .chain us t) :
    Takes ts (fun vs => Derives .chain (us ++ .sign s :: vs)) (readMember d t safe ts) := by
  match d with
  | 0 => exact .fault
  | d + 1 =>
    rw [readMember]
    refine (memberName_takes ts).bind fun n r vs hn => ?_
    subst hn
    dsimp only
    split
    · next h =>
      refine .shift h ((readArguments_takes d .rparen r.tail).bind fun as r vs has => ?_)
      obtain ⟨vs, rfl, has⟩ := has
      simpa using readMembers_takes d r (.call (n := n) hs ht has)
    · simpa using readMembers_takes d r (.property (n := n) hs ht)

theorem readArguments_takes (d : Nat) (close : Sign) (ts : List Spot) :
    Takes ts (DerivesUpTo close) (readArguments d close ts) := by
  match d with
  | 0 => exact .fault
  | d + 1 =>
    rw [readArguments]
    split
    · next h => exact .shift h (.done ⟨[], rfl, .nil⟩)
    · refine (readArgumentsRest_takes d close ts).mono fun us es hes => ?_
      obtain ⟨f, fs, -, hes⟩ := hes
      exact hes

theorem readArgumentsRest_takes (d : Nat) (close : Sign) (ts : List Spot) :
    Takes ts (fun us es => ∃ f fs, es = f :: fs ∧ DerivesUpTo close us es)
      (readArgumentsRest d close ts) := by
  match d with
  | 0 => exact .fault
  | d + 1 =>
    rw [readArgumentsRest]
    refine (readExpression_takes d ts).bind fun e r us he => ?_
    dsimp only
    split
    · next h =>
      refine .shift h ((readArgumentsRest_takes d close r.tail).bind fun es r vs hes => .done ?_)
      obtain ⟨f, fs, rfl, vs, rfl, hes⟩ := hes
      exact ⟨e, f :: fs, rfl, us ++ .sign .comma :: vs, by simp, .cons he hes⟩
    · refine .expect (.done ⟨e, [], rfl, us, rfl, .one he⟩)

theorem readPrimary_takes (d : Nat) (ts : List Spot) :
    Takes ts (Derives .primary) (readPrimary d ts) := by
  match d with
  | 0 => exact .fault
  | d + 1 =>
    rw [readPrimary]
    split
    · next n h => exact .shift h (.done (.int n))
    · next x h => exact .shift h (.done (.float x))
    · next s h => exact .shift h (.done (.text s))
    · next n h => exact .shift h (.done (.var n))
    · next w h => exact .shift h (.done (nameExpr_derives w))
    · next h =>
      refine .shift h ((readExpression_takes d ts.tail).bind fun e r us he => .expect ?_)
      exact .done (.group he)
    · next h =>
      refine .shift h ((readArguments_takes d .rbrace ts.tail).bind fun es r us hes => .done ?_)
      obtain ⟨us, rfl, hes⟩ := hes
      simpa using Derives.list hes
    · exact .fault

end

end CachedCalls.Expr
