import CachedCalls.Proofs.Expr.Accepted

/-!
What the grammar derives is accepted by the parser with the tree it is derived with, and so the
parser accepts exactly what is derived. A phrase is read to its end if what comes next does not go
on with it, and the recursion goes no deeper than a share for each of its tokens and what its kind
takes for itself.
-/

set_option autoImplicit false

namespace CachedCalls.Expr

theorem front_of_tokens {ts : List Spot} {t : Token} {us : List Token} (h : tokens ts = t :: us) :
    front ts = some t ∧ tokens ts.tail = us := by
  cases ts with
  | nil => cases h
  | cons s ts =>
    cases h
    exact ⟨rfl, rfl⟩

theorem expect_of_front {s : Sign} {ts : List Spot} (h : front ts = some (.sign s)) :
    expect s ts = .ok ts.tail := by
  unfold expect
  rw [if_pos h]

/-- What comes next does not go on with such a phrase. -/
def Phrase.Ends (p : Phrase) (us : List Token) : Prop :=
  ∀ s, us.head? = some (.sign s) → p.looseness < s.looseness

theorem Phrase.Ends.mono {p q : Phrase} {us : List Token} (h : q.Ends us)
    (hpq : p.looseness ≤ q.looseness) : p.Ends us :=
  fun s hs => Nat.lt_of_le_of_lt hpq (h s hs)

theorem Phrase.ends_cons {p : Phrase} {s : Sign} (h : p.looseness < s.looseness)
    (us : List Token) : p.Ends (.sign s :: us) := by
  rintro _ ⟨⟩
  exact h

theorem Phrase.Ends.not_front {p : Phrase} {ts : List Spot} (h : p.Ends (tokens ts)) {s : Sign}
    (hs : s.looseness ≤ p.looseness) : ¬ front ts = some (.sign s) := by
  intro hfront
  have hlt := h s (by rw [tokens_of_front hfront]; rfl)
  exact absurd hs (Nat.not_le.2 hlt)

section Gives

variable {α β : Type}

def Gives (x : Reading (α × List Spot)) (a : α) (us : List Token) : Prop :=
  ∃ r, tokens r = us ∧ x = .ok (a, r)

namespace Gives

variable {a : α} {b : β} {us vs : List Token} {ts : List Spot}

theorem done (h : tokens ts = us) : Gives (.ok (a, ts)) a us := ⟨ts, h, rfl⟩

theorem bind {x : Reading (α × List Spot)} {f : α × List Spot → Reading (β × List Spot)}
    (hx : Gives x a us) (hf : ∀ r, tokens r = us → Gives (f (a, r)) b vs) :
    Gives (x >>= f) b vs := by
  obtain ⟨r, hr, rfl⟩ := hx
  exact hf r hr

theorem expect {s : Sign} {f : List Spot → Reading (β × List Spot)}
    (h : tokens ts = .sign s :: us) (hf : ∀ r, tokens r = us → Gives (f r) b vs) :
    Gives (expect s ts >>= f) b vs := by
  obtain ⟨hfront, htail⟩ := front_of_tokens h
  rw [expect_of_front hfront]
  exact hf ts.tail htail

end Gives

end Gives

def Phrase.read : Phrase → Nat → List Spot → Reading (Expr × List Spot)
  | .expression => readExpression
  | .level l => fun d => readLevel d l
  | .unary => readUnary
  | .chain => fun d ts => do
    let (e, r) ← readPrimary d ts
    readMembers d e r
  | .primary => readPrimary

/-- The depth that such a phrase takes for itself, beside 20 for each of its tokens. -/
def Phrase.own : Phrase → Nat
  | .primary | .chain => 1
  | .unary => 2
  | .level l => 2 * l.looseness
  | .expression => 13

theorem Level.own_operand (l : Level) : l.operand.own + 2 = (Phrase.level l).own := by
  cases l <;> rfl

theorem readOperand_succ (d : Nat) (l : Level) (ts : List Spot) :
    readOperand (d + 1) l ts = l.operand.read d ts := by
  cases l <;> rw [readOperand] <;> rfl

/-- Wherever the tokens are found and what comes next does not go on with them, they are read as a
    phrase with this tree. -/
def Reads (p : Phrase) (us : List Token) (e : Expr) : Prop :=
  ∀ ⦃ts : List Spot⦄ ⦃ws : List Token⦄ ⦃d : Nat⦄, tokens ts = us ++ ws → p.Ends ws →
    20 * us.length + p.own ≤ d → Gives (p.read d ts) e ws

def Leads (l : Level) (us : List Token) (e : Expr) : Prop :=
  ∀ ⦃ts : List Spot⦄ ⦃ws : List Token⦄ ⦃d : Nat⦄, tokens ts = us ++ ws → l.operand.Ends ws →
    20 * us.length + (Phrase.level l).own ≤ d → ∃ r k, tokens r = ws ∧
      d ≤ k + 20 * us.length + 1 ∧ readLevel d l ts = joinRest k l e r

def Chained (us : List Token) (e : Expr) : Prop :=
  ∀ ⦃ts : List Spot⦄ ⦃ws : List Token⦄ ⦃d : Nat⦄, tokens ts = us ++ ws →
    ws.head? ≠ some (.sign .lparen) → 20 * us.length + Phrase.chain.own ≤ d →
      ∃ r k, tokens r = ws ∧ d ≤ k + 20 * us.length ∧
        Phrase.chain.read d ts = readMembers k e r

/-! Levels. -/

theorem op?_of_joins {l : Level} {s : Sign} {op : BinaryOp} (h : Joins l s op) :
    l.op? (.sign s) = some op := by
  cases h <;> rfl

theorem take?_of_joins {l : Level} {s : Sign} {op : BinaryOp} (h : Joins l s op) {ts : List Spot}
    (hts : front ts = some (.sign s)) : l.take? ts = some (op, ts.tail) := by
  cases ts with
  | nil => cases hts
  | cons t ts =>
    have ht : t.token = .sign s := Option.some.inj hts
    rw [Level.take?, ht, op?_of_joins h]
    rfl

theorem take?_of_ends {l : Level} {ts : List Spot} (h : (Phrase.level l).Ends (tokens ts)) :
    l.take? ts = none := by
  cases htake : l.take? ts with
  | none => rfl
  | some x =>
    obtain ⟨s, hs, -, hj⟩ := take?_joins htake
    exact absurd hs (h.not_front (Nat.le_of_eq hj.looseness_eq))

theorem Leads.operand {l : Level} {us : List Token} {e : Expr} (h : Reads l.operand us e) :
    Leads l us e := by
  intro ts ws d hts hends hd
  have hown := l.own_operand
  obtain ⟨d, rfl⟩ : ∃ k, d = k + 2 := ⟨d - 2, by omega⟩
  obtain ⟨r, hr, hread⟩ := h hts hends (d := d) (by omega)
  refine ⟨r, d + 1, hr, by omega, ?_⟩
  rw [readLevel, readOperand_succ, hread]
  rfl

theorem Leads.step {l : Level} {s : Sign} {op : BinaryOp} {us vs : List Token} {a b : Expr}
    (ha : Leads l us a) (hj : Joins l s op) (hb : Reads l.operand vs b) {ts : List Spot}
    {ws : List Token} {d : Nat} (hts : tokens ts = us ++ .sign s :: vs ++ ws)
    (hends : l.operand.Ends ws)
    (hd : 20 * (us ++ .sign s :: vs).length + (Phrase.level l).own ≤ d) :
    ∃ r k, tokens r = ws ∧ d ≤ k + 20 * (us ++ .sign s :: vs).length + 1 ∧ readLevel d l ts =
      if l.repeats then joinRest k l (.binary op a b) r else .ok (.binary op a b, r) := by
  have hown := l.own_operand
  have hlen : (us ++ Token.sign s :: vs).length = us.length + vs.length + 1 := by
    simp [Nat.add_assoc]
  have hnext : l.operand.Ends (.sign s :: (vs ++ ws)) :=
    Phrase.ends_cons (by rw [hj.looseness_eq]; exact l.operand_tighter) _
  obtain ⟨q, k, hq, hk, hread⟩ := ha (by simpa using hts) hnext (d := d) (by omega)
  obtain ⟨k, rfl⟩ : ∃ j, k = j + 2 := ⟨k - 2, by omega⟩
  obtain ⟨hfront, htail⟩ := front_of_tokens hq
  obtain ⟨r, hr, hright⟩ := hb htail hends (d := k) (by omega)
  refine ⟨r, k + 1, hr, by omega, ?_⟩
  rw [hread, joinRest, take?_of_joins hj hfront]
  simp only [readOperand_succ, hright]
  rfl

theorem Leads.join {l : Level} {s : Sign} {op : BinaryOp} {us vs : List Token} {a b : Expr}
    (hl : l ≠ .relational) (hj : Joins l s op) (ha : Leads l us a) (hb : Reads l.operand vs b) :
    Leads l (us ++ .sign s :: vs) (.binary op a b) := by
  intro ts ws d hts hends hd
  obtain ⟨r, k, hr, hk, hread⟩ := ha.step hj hb hts hends hd
  exact ⟨r, k, hr, hk, by rw [hread, if_pos (level_repeats.2 hl)]⟩

theorem Leads.reads {l : Level} {us : List Token} {e : Expr} (h : Leads l us e) :
    Reads (.level l) us e := by
  intro ts ws d hts hends hd
  have hown := l.own_operand
  obtain ⟨r, k, hr, hk, hread⟩ := h hts (hends.mono (Nat.le_of_lt l.operand_tighter)) hd
  obtain ⟨k, rfl⟩ : ∃ j, k = j + 1 := ⟨k - 1, by omega⟩
  refine ⟨r, hr, hread.trans ?_⟩
  rw [joinRest, take?_of_ends (hr ▸ hends)]

theorem Reads.compare {s : Sign} {op : BinaryOp} {us vs : List Token} {a b : Expr}
    (hj : Joins .relational s op) (ha : Reads (.level .additive) us a)
    (hb : Reads (.level .additive) vs b) :
    Reads (.level .relational) (us ++ .sign s :: vs) (.binary op a b) := by
  intro ts ws d hts hends hd
  have hends : Level.relational.operand.Ends ws := hends.mono (by decide)
  obtain ⟨r, k, hr, -, hread⟩ := Leads.step (Leads.operand (l := .relational) ha) hj hb hts hends hd
  exact ⟨r, hr, hread⟩

/-! Members and indexes. -/

theorem Chained.primary {us : List Token} {e : Expr} (h : Reads .primary us e) :
    Chained us e := by
  rintro ts ws d hts - hd
  have hends : Phrase.primary.Ends ws := fun s _ => by cases s <;> decide
  obtain ⟨r, hr, hread⟩ := h hts hends hd
  refine ⟨r, d, hr, by omega, ?_⟩
  change (readPrimary d ts >>= fun x => readMembers d x.1 x.2) = _
  rw [show readPrimary d ts = .ok (e, r) from hread]
  rfl

theorem Reaches.ne_lparen {s : Sign} {safe : Bool} (hs : Reaches s safe) : s ≠ .lparen := by
  cases hs <;> decide

theorem memberName_of_tokens {ts : List Spot} {n : String} {us : List Token}
    (h : tokens ts = .name n :: us) : memberName ts = .ok (n, ts.tail) := by
  match ts with
  | [] => cases h
  | ⟨t, p⟩ :: ts =>
    cases h
    rfl

theorem readMembers_name {s : Sign} {safe : Bool} (hs : Reaches s safe) {r : List Spot}
    {n : String} {us : List Token} (hr : tokens r = .sign s :: .name n :: us) (k : Nat)
    (t : Expr) : ∃ q, tokens q = us ∧ readMembers (k + 2) t r =
      if front q = some (.sign .lparen) then do
        let (as, q) ← readArguments k .rparen q.tail
        readMembers k (.call t n as safe) q
      else readMembers k (.property t n safe) q := by
  obtain ⟨hfront, htail⟩ := front_of_tokens hr
  have hmember : readMembers (k + 2) t r = readMember (k + 1) t safe r.tail := by
    cases hs <;> rw [readMembers, hfront]
  refine ⟨r.tail.tail, (front_of_tokens htail).2, ?_⟩
  rw [hmember, readMember, memberName_of_tokens htail]
  rfl

theorem Chained.property {s : Sign} {safe : Bool} {us : List Token} {t : Expr} {n : String}
    (hs : Reaches s safe) (ht : Chained us t) :
    Chained (us ++ [.sign s, .name n]) (.property t n safe) := by
  intro ts ws d hts hws hd
  have hlen : (us ++ [Token.sign s, .name n]).length = us.length + 2 := List.length_append
  have hown : Phrase.chain.own = 1 := rfl
  have hts : tokens ts = us ++ .sign s :: .name n :: ws := by simpa using hts
  obtain ⟨r, k, hr, hk, hread⟩ := ht hts (by simpa using hs.ne_lparen) (d := d) (by omega)
  obtain ⟨k, rfl⟩ : ∃ j, k = j + 2 := ⟨k - 2, by omega⟩
  obtain ⟨q, rfl, hname⟩ := readMembers_name hs hr k t
  refine ⟨q, k, rfl, by omega, ?_⟩
  rw [hread, hname, if_neg]
  intro h
  exact hws (by rw [tokens_of_front h]; rfl)

def ReadsSome (us : List Token) (es : List Expr) : Prop :=
  ∀ ⦃ts : List Spot⦄ ⦃close : Sign⦄ ⦃ws : List Token⦄ ⦃d : Nat⦄,
    tokens ts = us ++ .sign close :: ws → 7 < close.looseness → close ≠ .comma →
      20 * us.length + 14 ≤ d → Gives (readArgumentsRest d close ts) es ws

def ReadsAll (us : List Token) (es : List Expr) : Prop :=
  ∀ ⦃ts : List Spot⦄ ⦃close : Sign⦄ ⦃ws : List Token⦄ ⦃d : Nat⦄,
    tokens ts = us ++ .sign close :: ws → close = .rparen ∨ close = .rbrace →
      20 * us.length + 15 ≤ d → Gives (readArguments d close ts) es ws

theorem Chained.call {s : Sign} {safe : Bool} {us vs : List Token} {t : Expr} {n : String}
    {as : List Expr} (hs : Reaches s safe) (ht : Chained us t) (has : ReadsAll vs as) :
    Chained (us ++ .sign s :: .name n :: .sign .lparen :: (vs ++ [.sign .rparen]))
      (.call t n as safe) := by
  rintro ts ws d hts - hd
  have hlen : (us ++ Token.sign s :: .name n :: .sign .lparen :: (vs ++ [.sign .rparen])).length =
      us.length + vs.length + 4 := by simp [Nat.add_assoc]
  have hown : Phrase.chain.own = 1 := rfl
  have hts : tokens ts = us ++ .sign s :: .name n :: .sign .lparen ::
      (vs ++ .sign .rparen :: ws) := by simpa using hts
  obtain ⟨r, k, hr, hk, hread⟩ := ht hts (by simpa using hs.ne_lparen) (d := d) (by omega)
  obtain ⟨k, rfl⟩ : ∃ j, k = j + 2 := ⟨k - 2, by omega⟩
  obtain ⟨q, hq, hname⟩ := readMembers_name hs hr k t
  obtain ⟨hopen, hargs⟩ := front_of_tokens hq
  obtain ⟨x, hx, hreadArgs⟩ := has hargs (.inl rfl) (d := k) (by omega)
  refine ⟨x, k, hx, by omega, ?_⟩
  rw [hread, hname, if_pos hopen, hreadArgs]
  rfl

theorem Chained.index {us vs : List Token} {t i : Expr} (ht : Chained us t)
    (hi : Reads .expression vs i) :
    Chained (us ++ .sign .lbracket :: (vs ++ [.sign .rbracket])) (.index t i) := by
  rintro ts ws d hts - hd
  have hlen : (us ++ Token.sign .lbracket :: (vs ++ [.sign .rbracket])).length =
      us.length + vs.length + 2 := by simp [Nat.add_assoc]
  have hown : Phrase.chain.own = 1 ∧ Phrase.expression.own = 13 := ⟨rfl, rfl⟩
  have hts : tokens ts = us ++ .sign .lbracket :: (vs ++ .sign .rbracket :: ws) := by
    simpa using hts
  obtain ⟨r, k, hr, hk, hread⟩ := ht hts (by simp) (d := d) (by omega)
  obtain ⟨k, rfl⟩ : ∃ j, k = j + 1 := ⟨k - 1, by omega⟩
  obtain ⟨hopen, hindex⟩ := front_of_tokens hr
  obtain ⟨q, hq, hreadIndex⟩ := hi hindex (Phrase.ends_cons (by decide) ws) (d := k) (by omega)
  obtain ⟨hclose, hafter⟩ := front_of_tokens hq
  refine ⟨q.tail, k, hafter, by omega, ?_⟩
  rw [hread, readMembers, hopen]
  change (readExpression k r.tail >>= fun x => expect .rbracket x.2 >>= _) = _
  rw [show readExpression k r.tail = .ok (i, q) from hreadIndex]
  change (expect .rbracket q >>= _) = _
  rw [expect_of_front hclose]
  rfl

theorem readMembers_of_ends {ts : List Spot} (h : Phrase.unary.Ends (tokens ts)) (d : Nat)
    (e : Expr) : readMembers (d + 1) e ts = .ok (e, ts) := by
  rw [readMembers]
  split
  · next hfront => exact absurd hfront (h.not_front (by decide))
  · next hfront => exact absurd hfront (h.not_front (by decide))
  · next hfront => exact absurd hfront (h.not_front (by decide))
  · rfl

theorem readPrimary_begins {d : Nat} {ts : List Spot} {x : Expr × List Spot} {s : Sign}
    (h : readPrimary d ts = .ok x) (hs : front ts = some (.sign s)) :
    s = .lparen ∨ s = .lbrace := by
  cases d with
  | zero => cases h
  | succ d =>
    rw [readPrimary, hs] at h
    cases s <;> first | decide | cases h

theorem readUnary_of_chain {d : Nat} {ts : List Spot} {x : Expr × List Spot}
    (h : Phrase.chain.read d ts = .ok x) : readUnary (d + 1) ts = .ok x := by
  have hprimary : ∃ y, readPrimary d ts = .ok y := by
    cases hread : readPrimary d ts with
    | ok y => exact ⟨y, rfl⟩
    | error f =>
      change (readPrimary d ts >>= fun y => readMembers d y.1 y.2) = _ at h
      rw [hread] at h
      cases h
  obtain ⟨y, hy⟩ := hprimary
  rw [readUnary]
  split
  · next hfront => exact absurd (readPrimary_begins hy hfront) (by decide)
  · next hfront => exact absurd (readPrimary_begins hy hfront) (by decide)
  · next hfront => exact absurd (readPrimary_begins hy hfront) (by decide)
  · exact h

theorem Chained.reads {us : List Token} {e : Expr} (h : Chained us e) : Reads .unary us e := by
  intro ts ws d hts hends hd
  have hown : Phrase.chain.own = 1 ∧ Phrase.unary.own = 2 := ⟨rfl, rfl⟩
  obtain ⟨d, rfl⟩ : ∃ k, d = k + 1 := ⟨d - 1, by omega⟩
  have hws : ws.head? ≠ some (.sign .lparen) := by
    intro hlparen
    exact absurd (hends _ hlparen) (by decide)
  obtain ⟨r, k, hr, hk, hread⟩ := h hts hws (d := d) (by omega)
  obtain ⟨k, rfl⟩ : ∃ j, k = j + 1 := ⟨k - 1, by omega⟩
  refine ⟨r, hr, readUnary_of_chain (hread.trans ?_)⟩
  exact readMembers_of_ends (hr ▸ hends) k e

/-! Signs before a phrase, and phrases between signs. -/

theorem Reads.signed {s : Sign} {us : List Token} {e f : Expr} (h : Reads .unary us e)
    (hs : ∀ (d : Nat) (ts : List Spot) (ws : List Token), front ts = some (.sign s) →
      Gives (readUnary d ts.tail) e ws → Gives (readUnary (d + 1) ts) f ws) :
    Reads .unary (.sign s :: us) f := by
  intro ts ws d hts hends hd
  have hlen : (Token.sign s :: us).length = us.length + 1 := rfl
  obtain ⟨hfront, htail⟩ := front_of_tokens hts
  obtain ⟨d, rfl⟩ : ∃ k, d = k + 1 := ⟨d - 1, by omega⟩
  exact hs d ts ws hfront (h htail hends (d := d) (by omega))

theorem Reads.not {us : List Token} {e : Expr} (h : Reads .unary us e) :
    Reads .unary (.sign .not :: us) (.unary .not e) := by
  refine h.signed fun d ts ws hfront hread => ?_
  rw [readUnary, hfront]
  exact hread.bind fun r hr => .done hr

theorem Reads.minus {us : List Token} {e : Expr} (h : Reads .unary us e) :
    Reads .unary (.sign .minus :: us) (.unary .negate e) := by
  refine h.signed fun d ts ws hfront hread => ?_
  rw [readUnary, hfront]
  exact hread.bind fun r hr => .done hr

theorem Reads.plus {us : List Token} {e : Expr} (h : Reads .unary us e) :
    Reads .unary (.sign .plus :: us) e := by
  refine h.signed fun d ts ws hfront hread => ?_
  rw [readUnary, hfront]
  exact hread

theorem Reads.token {t : Token} {e : Expr} (h : ∀ (d : Nat) (ts : List Spot), front ts = some t →
    readPrimary (d + 1) ts = .ok (e, ts.tail)) : Reads .primary [t] e := by
  rintro ts ws d hts - hd
  obtain ⟨hfront, htail⟩ := front_of_tokens hts
  obtain ⟨d, rfl⟩ : ∃ k, d = k + 1 := ⟨d - 1, by simp at hd; omega⟩
  exact ⟨ts.tail, htail, h d ts hfront⟩

theorem Reads.int (n : Nat) : Reads .primary [.int n] (.literal (.int n)) :=
  Reads.token fun d ts h => by rw [readPrimary, h]

theorem Reads.float (x : Float) : Reads .primary [.float x] (.literal (.float x)) :=
  Reads.token fun d ts h => by rw [readPrimary, h]

theorem Reads.text (s : String) : Reads .primary [.text s] (.literal (.str s)) :=
  Reads.token fun d ts h => by rw [readPrimary, h]

theorem Reads.var (n : String) : Reads .primary [.var n] (.var n) :=
  Reads.token fun d ts h => by rw [readPrimary, h]

theorem Reads.word (w : String) : Reads .primary [.name w] (nameExpr w) :=
  Reads.token fun d ts h => by rw [readPrimary, h]

theorem nameExpr_of_constant {w : String} {v : Value} (h : (w.toLower, v) ∈ constants) :
    nameExpr w = .literal v := by
  unfold nameExpr
  rw [foldWord_toList]
  simp only [constants, List.mem_cons, Prod.mk.injEq, List.not_mem_nil, or_false] at h
  obtain ⟨hw, rfl⟩ | ⟨hw, rfl⟩ | ⟨hw, rfl⟩ := h <;> rw [hw] <;> rfl

theorem nameExpr_of_name {w : String} (h : ∀ v, (w.toLower, v) ∉ constants) :
    nameExpr w = .name w := by
  unfold nameExpr
  rw [foldWord_toList]
  have htrue : w.toLower ≠ "true" := fun hw => h (.bool true) (by simp [constants, hw])
  have hfalse : w.toLower ≠ "false" := fun hw => h (.bool false) (by simp [constants, hw])
  have hnull : w.toLower ≠ "null" := fun hw => h .null (by simp [constants, hw])
  simp only [if_neg htrue, if_neg hfalse, if_neg hnull]

theorem Reads.group {us : List Token} {e : Expr} (h : Reads .expression us e) :
    Reads .primary (.sign .lparen :: (us ++ [.sign .rparen])) e := by
  rintro ts ws d hts - hd
  have hlen : (Token.sign .lparen :: (us ++ [.sign .rparen])).length = us.length + 2 := by simp
  have hown : Phrase.primary.own = 1 ∧ Phrase.expression.own = 13 := ⟨rfl, rfl⟩
  have hts : tokens ts = .sign .lparen :: (us ++ .sign .rparen :: ws) := by simpa using hts
  obtain ⟨hopen, hin⟩ := front_of_tokens hts
  obtain ⟨d, rfl⟩ : ∃ k, d = k + 1 := ⟨d - 1, by omega⟩
  have hin := h hin (Phrase.ends_cons (by decide) ws) (d := d) (by omega)
  rw [Phrase.read, readPrimary, hopen]
  exact hin.bind fun r hr => .expect hr fun r hr => .done hr

theorem Reads.list {us : List Token} {es : List Expr} (h : ReadsAll us es) :
    Reads .primary (.sign .lbrace :: (us ++ [.sign .rbrace])) (.list es) := by
  rintro ts ws d hts - hd
  have hlen : (Token.sign .lbrace :: (us ++ [.sign .rbrace])).length = us.length + 2 := by simp
  have hown : Phrase.primary.own = 1 := rfl
  have hts : tokens ts = .sign .lbrace :: (us ++ .sign .rbrace :: ws) := by simpa using hts
  obtain ⟨hopen, hin⟩ := front_of_tokens hts
  obtain ⟨d, rfl⟩ : ∃ k, d = k + 1 := ⟨d - 1, by omega⟩
  rw [Phrase.read, readPrimary, hopen]
  exact (h hin (.inr rfl) (d := d) (by omega)).bind fun r hr => .done hr

/-! Whole expressions and lists of them. -/

theorem Reads.plain {us : List Token} {e : Expr} (h : Reads (.level .or) us e) :
    Reads .expression us e := by
  intro ts ws d hts hends hd
  have hown : (Phrase.level .or).own = 12 ∧ Phrase.expression.own = 13 := ⟨rfl, rfl⟩
  obtain ⟨d, rfl⟩ : ∃ k, d = k + 1 := ⟨d - 1, by omega⟩
  have he := h hts (hends.mono (by decide)) (d := d) (by omega)
  rw [Phrase.read, readExpression]
  refine he.bind fun r hr => ?_
  have hends : Phrase.expression.Ends (tokens r) := hr ▸ hends
  dsimp only
  rw [if_neg (hends.not_front (by decide)), if_neg (hends.not_front (by decide))]
  exact .done hr

theorem Reads.condition {s : Sign} {us vs : List Token} {c : Expr} (h : Reads (.level .or) us c)
    (hs : s.looseness = 7) {ts : List Spot} {d : Nat} (hts : tokens ts = us ++ .sign s :: vs)
    (hd : 20 * us.length + Phrase.expression.own ≤ d + 1) :
    Gives (readLevel d .or ts) c (.sign s :: vs) := by
  have hown : (Phrase.level .or).own = 12 ∧ Phrase.expression.own = 13 := ⟨rfl, rfl⟩
  exact h hts (Phrase.ends_cons (by rw [hs]; decide) vs) (d := d) (by omega)

theorem Reads.ternary {us vs ws : List Token} {c y n : Expr} (hc : Reads (.level .or) us c)
    (hy : Reads .expression vs y) (hn : Reads .expression ws n) :
    Reads .expression (us ++ .sign .question :: (vs ++ .sign .colon :: ws)) (.ternary c y n) := by
  intro ts xs d hts hends hd
  have hlen : (us ++ Token.sign .question :: (vs ++ .sign .colon :: ws)).length =
      us.length + vs.length + ws.length + 2 := by simp [Nat.add_assoc]
  have hown : Phrase.expression.own = 13 := rfl
  obtain ⟨d, rfl⟩ : ∃ k, d = k + 1 := ⟨d - 1, by omega⟩
  have hts : tokens ts = us ++ .sign .question :: (vs ++ .sign .colon :: (ws ++ xs)) := by
    simpa using hts
  rw [Phrase.read, readExpression]
  refine (hc.condition rfl hts (d := d) (by omega)).bind fun r hr => ?_
  obtain ⟨hquestion, hr⟩ := front_of_tokens hr
  dsimp only
  rw [if_pos hquestion]
  refine (hy hr (Phrase.ends_cons (by decide) _) (d := d) (by omega)).bind fun r hr => ?_
  refine .expect hr fun r hr => ?_
  exact (hn hr hends (d := d) (by omega)).bind fun r hr => .done hr

theorem Reads.elvis {us vs : List Token} {v f : Expr} (hv : Reads (.level .or) us v)
    (hf : Reads .expression vs f) :
    Reads .expression (us ++ .sign .elvis :: vs) (.elvis v f) := by
  intro ts ws d hts hends hd
  have hlen : (us ++ Token.sign .elvis :: vs).length = us.length + vs.length + 1 := by
    simp [Nat.add_assoc]
  have hown : Phrase.expression.own = 13 := rfl
  obtain ⟨d, rfl⟩ : ∃ k, d = k + 1 := ⟨d - 1, by omega⟩
  have hts : tokens ts = us ++ .sign .elvis :: (vs ++ ws) := by simpa using hts
  rw [Phrase.read, readExpression]
  refine (hv.condition rfl hts (d := d) (by omega)).bind fun r hr => ?_
  obtain ⟨helvis, hr⟩ := front_of_tokens hr
  dsimp only
  rw [if_neg (by rw [helvis]; decide), if_pos helvis]
  exact (hf hr hends (d := d) (by omega)).bind fun r hr => .done hr

theorem ReadsSome.one {us : List Token} {e : Expr} (h : Reads .expression us e) :
    ReadsSome us [e] := by
  intro ts close ws d hts hloose hcomma hd
  have hown : Phrase.expression.own = 13 := rfl
  obtain ⟨d, rfl⟩ : ∃ k, d = k + 1 := ⟨d - 1, by omega⟩
  have he := h hts (Phrase.ends_cons (p := .expression) hloose ws) (d := d) (by omega)
  rw [readArgumentsRest]
  refine he.bind fun r hr => ?_
  obtain ⟨hclose, -⟩ := front_of_tokens hr
  dsimp only
  rw [if_neg (by rw [hclose]; simpa using hcomma)]
  exact .expect hr fun r hr => .done hr

theorem ReadsSome.cons {us vs : List Token} {e : Expr} {es : List Expr}
    (h : Reads .expression us e) (hes : ReadsSome vs es) :
    ReadsSome (us ++ .sign .comma :: vs) (e :: es) := by
  intro ts close ws d hts hloose hcomma hd
  have hlen : (us ++ Token.sign .comma :: vs).length = us.length + vs.length + 1 := by
    simp [Nat.add_assoc]
  have hown : Phrase.expression.own = 13 := rfl
  obtain ⟨d, rfl⟩ : ∃ k, d = k + 1 := ⟨d - 1, by omega⟩
  have hts : tokens ts = us ++ .sign .comma :: (vs ++ .sign close :: ws) := by simpa using hts
  have he := h hts (Phrase.ends_cons (by decide) _) (d := d) (by omega)
  rw [readArgumentsRest]
  refine he.bind fun r hr => ?_
  obtain ⟨hnext, hr⟩ := front_of_tokens hr
  dsimp only
  rw [if_pos hnext]
  exact (hes hr hloose hcomma (d := d) (by omega)).bind fun r hr => .done hr

/-! Derivations. -/

def Opens (us : List Token) : Prop :=
  ∃ t, us.head? = some t ∧ t ≠ .sign .rparen ∧ t ≠ .sign .rbrace

theorem Opens.append {us : List Token} (h : Opens us) (vs : List Token) : Opens (us ++ vs) := by
  obtain ⟨t, ht, hclose⟩ := h
  exact ⟨t, by rw [List.head?_append, ht]; rfl, hclose⟩

theorem Derives.opens {p : Phrase} {us : List Token} {e : Expr} (h : Derives p us e) :
    Opens us := by
  match h with
  | .plain h | .operand h | .chain h | .primary h => exact h.opens
  | .ternary h _ _ | .elvis h _ | .join _ _ h _ | .compare _ h _ | .property _ h | .call _ h _
  | .index h _ => exact h.opens.append _
  | .not _ | .minus _ | .plus _ | .int _ | .float _ | .text _ | .var _ | .constant _ | .name _
  | .group _ | .list _ => exact ⟨_, rfl, nofun, nofun⟩

theorem ReadsAll.nil : ReadsAll [] [] := by
  rintro ts close ws d hts - hd
  obtain ⟨hclose, hafter⟩ := front_of_tokens hts
  obtain ⟨d, rfl⟩ : ∃ k, d = k + 1 := ⟨d - 1, by omega⟩
  rw [readArguments, if_pos hclose]
  exact .done hafter

theorem ReadsSome.readsAll {us : List Token} {es : List Expr} (h : ReadsSome us es)
    (hopens : Opens us) : ReadsAll us es := by
  intro ts close ws d hts hclose hd
  obtain ⟨t, ht, hrparen, hrbrace⟩ := hopens
  obtain ⟨d, rfl⟩ : ∃ k, d = k + 1 := ⟨d - 1, by omega⟩
  have hfront : ¬ front ts = some (.sign close) := by
    intro hfront
    have hhead : (us ++ .sign close :: ws).head? = some (.sign close) := by
      rw [← hts, tokens_of_front hfront]
      rfl
    rw [List.head?_append, ht] at hhead
    cases hhead
    obtain rfl | rfl := hclose
    · exact hrparen rfl
    · exact hrbrace rfl
  have hloose : 7 < close.looseness ∧ close ≠ .comma := by
    obtain rfl | rfl := hclose <;> decide
  rw [readArguments, if_neg hfront]
  exact h hts hloose.1 hloose.2 (by omega)

/-- How each kind of phrase is read. A level and a chain are read as what more operators and
    members may follow too; after a comparison no operator of its level may. -/
def Accepts : Phrase → List Token → Expr → Prop
  | .level l => fun us e => Reads (.level l) us e ∧ (l ≠ .relational → Leads l us e)
  | .chain => Chained
  | p => Reads p

theorem Accepts.reads_operand {l : Level} {us : List Token} {e : Expr}
    (h : Accepts l.operand us e) : Reads l.operand us e := by
  cases l with
  | multiplicative => exact h
  | or | and | relational | additive => exact h.1

mutual

theorem Derives.accepts {p : Phrase} {us : List Token} {e : Expr} (h : Derives p us e) :
    Accepts p us e := by
  match h with
  | .plain h => exact Reads.plain h.accepts.1
  | .ternary hc hy hn => exact Reads.ternary hc.accepts.1 hy.accepts hn.accepts
  | .elvis hv hf => exact Reads.elvis hv.accepts.1 hf.accepts
  | .operand h =>
    have hleads := Leads.operand h.accepts.reads_operand
    exact ⟨hleads.reads, fun _ => hleads⟩
  | .join hl hj ha hb =>
    have hleads := Leads.join hl hj (ha.accepts.2 hl) hb.accepts.reads_operand
    exact ⟨hleads.reads, fun _ => hleads⟩
  | .compare hj ha hb => exact ⟨Reads.compare hj ha.accepts.1 hb.accepts.1, fun h => absurd rfl h⟩
  | .not h => exact Reads.not h.accepts
  | .minus h => exact Reads.minus h.accepts
  | .plus h => exact Reads.plus h.accepts
  | .chain h => exact Chained.reads h.accepts
  | .primary h => exact Chained.primary h.accepts
  | .property hs ht => exact Chained.property hs ht.accepts
  | .call hs ht has => exact Chained.call hs ht.accepts has.accepts.1
  | .index ht hi => exact Chained.index ht.accepts hi.accepts
  | .int n => exact Reads.int n
  | .float x => exact Reads.float x
  | .text s => exact Reads.text s
  | .var n => exact Reads.var n
  | .constant h => exact nameExpr_of_constant h ▸ Reads.word _
  | .name h => exact nameExpr_of_name h ▸ Reads.word _
  | .group h => exact Reads.group h.accepts
  | .list h => exact Reads.list h.accepts.1

theorem DerivesAll.accepts {us : List Token} {es : List Expr} (h : DerivesAll us es) :
    ReadsAll us es ∧ (es ≠ [] → ReadsSome us es) := by
  match h with
  | .nil => exact ⟨ReadsAll.nil, fun h => absurd rfl h⟩
  | .one h =>
    have hsome := ReadsSome.one h.accepts
    exact ⟨hsome.readsAll h.opens, fun _ => hsome⟩
  | .cons h hs =>
    have hsome := ReadsSome.cons h.accepts (hs.accepts.2 nofun)
    exact ⟨hsome.readsAll (h.opens.append _), fun _ => hsome⟩

end

theorem Derives.ofSpots_eq {ts : List Spot} {e : Expr} (h : Derives .expression (tokens ts) e) :
    ofSpots ts = .ok e := by
  have hlen : (tokens ts).length = ts.length := List.length_map _
  have hown : Phrase.expression.own = 13 := rfl
  obtain ⟨r, hr, hread⟩ := h.accepts (List.append_nil _).symm nofun (d := depth ts)
    (by rw [depth]; omega)
  cases List.map_eq_nil_iff.1 hr
  rw [ofSpots, show readExpression (depth ts) ts = .ok (e, []) from hread]

theorem derives_of_ofSpots {ts : List Spot} {e : Expr} (h : ofSpots ts = .ok e) :
    Derives .expression (tokens ts) e := by
  unfold ofSpots at h
  split at h
  · cases h
  · next a hread =>
    cases h
    obtain ⟨us, hus, hd⟩ := readExpression_takes (depth ts) ts _ _ hread
    rwa [hus, show tokens [] = [] from rfl, List.append_nil]
  · cases h

/-- A list of spots has a tree if and only if the grammar derives its tokens with that tree, and
    the grammar derives no tokens with two trees. -/
theorem ofSpots_iff_derives (ts : List Spot) :
    (∀ e, ofSpots ts = .ok e ↔ Derives .expression (tokens ts) e) ∧
      Subsingleton {e // Derives .expression (tokens ts) e} := by
  refine ⟨fun e => ⟨derives_of_ofSpots, Derives.ofSpots_eq⟩, ⟨fun ⟨e, he⟩ ⟨f, hf⟩ => ?_⟩⟩
  cases Except.ok.inj (he.ofSpots_eq.symm.trans hf.ofSpots_eq)
  rfl

end CachedCalls.Expr
