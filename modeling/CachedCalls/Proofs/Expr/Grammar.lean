import CachedCalls.Expr.Parse

set_option autoImplicit false

namespace CachedCalls.Expr

inductive Joins : Level → Sign → BinaryOp → Prop where
  | or : Joins .or .or .or
  | and : Joins .and .and .and
  | eq : Joins .relational .eq .eq
  | ne : Joins .relational .ne .ne
  | lt : Joins .relational .lt .lt
  | le : Joins .relational .le .le
  | gt : Joins .relational .gt .gt
  | ge : Joins .relational .ge .ge
  | add : Joins .additive .plus .add
  | sub : Joins .additive .minus .sub
  | mul : Joins .multiplicative .star .mul
  | div : Joins .multiplicative .slash .div
  | rem : Joins .multiplicative .percent .rem

inductive Reaches : Sign → Bool → Prop where
  | dot : Reaches .dot false
  | safeDot : Reaches .safeDot true

def constants : List (String × Value) :=
  [("true", .bool true), ("false", .bool false), ("null", .null)]

inductive Phrase where
  | expression
  | level (l : Level)
  | unary
  | chain
  | primary
  deriving DecidableEq

def Level.operand : Level → Phrase
  | .or => .level .and
  | .and => .level .relational
  | .relational => .level .additive
  | .additive => .level .multiplicative
  | .multiplicative => .unary

mutual

/-- The tokens are a phrase of this kind with this tree. -/
inductive Derives : Phrase → List Token → Expr → Prop where
  -- expression := or ('?' expression ':' expression | '?:' expression)?
  | plain {us : List Token} {e : Expr} : Derives (.level .or) us e → Derives .expression us e
  | ternary {us vs ws : List Token} {c y n : Expr} : Derives (.level .or) us c →
      Derives .expression vs y → Derives .expression ws n →
      Derives .expression (us ++ .sign .question :: (vs ++ .sign .colon :: ws)) (.ternary c y n)
  | elvis {us vs : List Token} {v f : Expr} : Derives (.level .or) us v →
      Derives .expression vs f → Derives .expression (us ++ .sign .elvis :: vs) (.elvis v f)
  -- level := operand (operator operand)*, to the left; at most one operator if it compares
  | operand {l : Level} {us : List Token} {e : Expr} : Derives l.operand us e →
      Derives (.level l) us e
  | join {l : Level} {s : Sign} {op : BinaryOp} {us vs : List Token} {a b : Expr} :
      l ≠ .relational → Joins l s op → Derives (.level l) us a → Derives l.operand vs b →
      Derives (.level l) (us ++ .sign s :: vs) (.binary op a b)
  | compare {s : Sign} {op : BinaryOp} {us vs : List Token} {a b : Expr} :
      Joins .relational s op → Derives (.level .additive) us a → Derives (.level .additive) vs b →
      Derives (.level .relational) (us ++ .sign s :: vs) (.binary op a b)
  -- unary := ('not' | '-' | '+') unary | chain
  | not {us : List Token} {e : Expr} : Derives .unary us e →
      Derives .unary (.sign .not :: us) (.unary .not e)
  | minus {us : List Token} {e : Expr} : Derives .unary us e →
      Derives .unary (.sign .minus :: us) (.unary .negate e)
  | plus {us : List Token} {e : Expr} : Derives .unary us e → Derives .unary (.sign .plus :: us) e
  | chain {us : List Token} {e : Expr} : Derives .chain us e → Derives .unary us e
  -- chain := primary (('.' | '?.') name ('(' arguments ')')? | '[' expression ']')*
  | primary {us : List Token} {e : Expr} : Derives .primary us e → Derives .chain us e
  | property {s : Sign} {safe : Bool} {us : List Token} {t : Expr} {n : String} : Reaches s safe →
      Derives .chain us t → Derives .chain (us ++ [.sign s, .name n]) (.property t n safe)
  | call {s : Sign} {safe : Bool} {us vs : List Token} {t : Expr} {n : String} {as : List Expr} :
      Reaches s safe → Derives .chain us t → DerivesAll vs as →
      Derives .chain (us ++ .sign s :: .name n :: .sign .lparen :: (vs ++ [.sign .rparen]))
        (.call t n as safe)
  | index {us vs : List Token} {t i : Expr} : Derives .chain us t → Derives .expression vs i →
      Derives .chain (us ++ .sign .lbracket :: (vs ++ [.sign .rbracket])) (.index t i)
  -- primary := number | text | variable | name | '(' expression ')' | '{' arguments '}'
  | int (n : Nat) : Derives .primary [.int n] (.literal (.int n))
  | float (x : Float) : Derives .primary [.float x] (.literal (.float x))
  | text (s : String) : Derives .primary [.text s] (.literal (.str s))
  | var (n : String) : Derives .primary [.var n] (.var n)
  | constant {w : String} {v : Value} : (w.toLower, v) ∈ constants →
      Derives .primary [.name w] (.literal v)
  | name {w : String} : (∀ v, (w.toLower, v) ∉ constants) → Derives .primary [.name w] (.name w)
  | group {us : List Token} {e : Expr} : Derives .expression us e →
      Derives .primary (.sign .lparen :: (us ++ [.sign .rparen])) e
  | list {us : List Token} {es : List Expr} : DerivesAll us es →
      Derives .primary (.sign .lbrace :: (us ++ [.sign .rbrace])) (.list es)

inductive DerivesAll : List Token → List Expr → Prop where
  | nil : DerivesAll [] []
  | one {us : List Token} {e : Expr} : Derives .expression us e → DerivesAll us [e]
  | cons {us vs : List Token} {e f : Expr} {fs : List Expr} : Derives .expression us e →
      DerivesAll vs (f :: fs) → DerivesAll (us ++ .sign .comma :: vs) (e :: f :: fs)

end

/-- How loosely a sign goes on with what stands before it. Signs that go on with nothing, and those
    that only begin a phrase, come last. -/
def Sign.looseness : Sign → Nat
  | .dot | .safeDot | .lbracket | .lparen => 1
  | .star | .slash | .percent => 2
  | .plus | .minus => 3
  | .eq | .ne | .lt | .le | .gt | .ge => 4
  | .and => 5
  | .or => 6
  | .question | .elvis => 7
  | .rparen | .rbracket | .rbrace | .lbrace | .comma | .colon | .not => 8

def Level.looseness : Level → Nat
  | .multiplicative => 2
  | .additive => 3
  | .relational => 4
  | .and => 5
  | .or => 6

def Phrase.looseness : Phrase → Nat
  | .primary => 0
  | .chain | .unary => 1
  | .level l => l.looseness
  | .expression => 7

theorem Joins.looseness_eq {l : Level} {s : Sign} {op : BinaryOp} (h : Joins l s op) :
    s.looseness = l.looseness := by
  cases h <;> rfl

theorem Level.operand_tighter (l : Level) : l.operand.looseness < l.looseness := by
  cases l <;> decide

end CachedCalls.Expr
