import CachedCalls.Expr.Error
import CachedCalls.Number.Literal
import CachedCalls.Text.Blank
import CachedCalls.Text.Letters

set_option autoImplicit false

namespace CachedCalls.Expr

/-- The sign that one or two characters spell, and how many more than one it took. -/
def signAt : Char → Option Char → Option (Sign × Nat)
  | '(', _ => some (.lparen, 0)
  | ')', _ => some (.rparen, 0)
  | '[', _ => some (.lbracket, 0)
  | ']', _ => some (.rbracket, 0)
  | '\x7b', _ => some (.lbrace, 0)
  | '\x7d', _ => some (.rbrace, 0)
  | ',', _ => some (.comma, 0)
  | '.', _ => some (.dot, 0)
  | ':', _ => some (.colon, 0)
  | '+', _ => some (.plus, 0)
  | '-', _ => some (.minus, 0)
  | '*', _ => some (.star, 0)
  | '/', _ => some (.slash, 0)
  | '%', _ => some (.percent, 0)
  | '?', some '.' => some (.safeDot, 1)
  | '?', some ':' => some (.elvis, 1)
  | '?', _ => some (.question, 0)
  | '=', some '=' => some (.eq, 1)
  | '!', some '=' => some (.ne, 1)
  | '!', _ => some (.not, 0)
  | '<', some '=' => some (.le, 1)
  | '<', _ => some (.lt, 0)
  | '>', some '=' => some (.ge, 1)
  | '>', _ => some (.gt, 0)
  | '&', some '&' => some (.and, 1)
  | '|', some '|' => some (.or, 1)
  | _, _ => none

/-- The words that stand for operators. -/
def wordSigns : List (String × Sign) :=
  [("and", .and), ("or", .or), ("not", .not), ("eq", .eq), ("ne", .ne), ("lt", .lt), ("le", .le),
   ("gt", .gt), ("ge", .ge), ("div", .slash), ("mod", .percent)]

def foldWord (w : List Char) : String := String.ofList (w.map Char.toLower)

def wordToken (w : List Char) : Token :=
  match wordSigns.lookup (foldWord w) with
  | some s => .sign s
  | none => .name (String.ofList w)

/-- The text up to the closing quote and the characters taken, that quote included. A doubled
    quote stands for one. -/
def quotedRest (q : Char) : List Char → Option (List Char × Nat)
  | [] => none
  | [c] => if c = q then some ([], 1) else none
  | c :: d :: r =>
    if c = q then
      if d = q then (quotedRest q r).map fun (s, n) => (q :: s, n + 2) else some ([], 1)
    else (quotedRest q (d :: r)).map fun (s, n) => (c :: s, n + 1)

def pointDigits : List Char → List Char
  | '.' :: r => r.takeWhile Number.isDigit
  | _ => []

def isLongMark : List Char → Bool
  | c :: _ => c == 'L' || c == 'l'
  | [] => false

def numberLexeme (c : Char) (r : List Char) : Except SyntaxFault (Token × Nat) :=
  let whole := c :: r.takeWhile Number.isDigit
  let part := pointDigits (r.dropWhile Number.isDigit)
  let literal := if part.isEmpty then whole else whole ++ '.' :: part
  let taken := literal.length - 1
  let taken := if isLongMark (r.drop taken) then taken + 1 else taken
  if part.isEmpty then
    let n := Number.ofDigits whole
    if n < Number.signBit then .ok (.int n, taken) else .error (.badNumber (String.ofList literal))
  else
    let x := Number.nearest false (Number.ofDigits (whole ++ part)) (-(part.length : Int))
    if x.isFinite then .ok (.float x, taken) else .error (.badNumber (String.ofList literal))

/-- The lexeme that starts with `c`, and how many characters of `r` belong to it. -/
def lexeme (c : Char) (r : List Char) : Except SyntaxFault (Token × Nat) :=
  match signAt c r.head? with
  | some (s, n) => .ok (.sign s, n)
  | none =>
    if c = '\'' ∨ c = '"' then
      match quotedRest c r with
      | some (s, n) => .ok (.text (String.ofList s), n)
      | none => .error .openText
    else if c = '#' then
      let w := r.takeWhile Text.isNameChar
      if w.isEmpty then .error .bareHash else .ok (.var (String.ofList w), w.length)
    else if Number.isDigit c then numberLexeme c r
    else if Text.isLetter c || c == '_' then
      let w := r.takeWhile Text.isNameChar
      .ok (wordToken (c :: w), w.length)
    else .error (.badChar c)

/-- The spots of a text whose first character has position `p`, or the first fault. -/
def scanFrom (p : Nat) : List Char → Except (Nat × SyntaxFault) (List Spot)
  | [] => .ok []
  | c :: r =>
    if Text.isSpace c then scanFrom (p + 1) r
    else
      match lexeme c r with
      | .error f => .error (p, f)
      | .ok (t, n) => (scanFrom (p + 1 + n) (r.drop n)).map (⟨t, p⟩ :: ·)
termination_by cs => cs.length

def scan (s : String) : Except (Nat × SyntaxFault) (List Spot) := scanFrom 0 s.toList

end CachedCalls.Expr
