import CachedCalls.Json5.Name
import CachedCalls.Value.Read

set_option autoImplicit false

namespace CachedCalls.Json5

def isLineEnd (c : Char) : Bool := c == '\n' || c == '\r' || c == '\u2028' || c == '\u2029'

def spaces : Text.CharSet :=
  [32, 33, 160, 161, 5760, 5761, 8192, 8203, 8239, 8240, 8287, 8288, 12288, 12289]

def isGap (c : Char) : Bool :=
  isLineEnd c || c == '\t' || c == '\x0b' || c == '\x0c' || c == '\uFEFF' || spaces.covers c.toNat

def commentEnd? : List Char → Option (List Char)
  | [] => none
  | '*' :: '/' :: r => some r
  | _ :: r => commentEnd? r

def skipGap : Nat → List Char → List Char
  | 0, cs => cs
  | fuel + 1, cs =>
    match cs.dropWhile isGap with
    | '/' :: '/' :: r => skipGap fuel (r.dropWhile fun c => !isLineEnd c)
    | '/' :: '*' :: r =>
      match commentEnd? r with
      | some r => skipGap fuel r
      | none => '/' :: '*' :: r
    | r => r

def skip (cs : List Char) : List Char := skipGap (cs.length + 1) cs

/-- The characters read so far, back to front, and the high surrogate that waits for its low one. -/
structure Chars where
  read : List Char := []
  high : Option Nat := none

namespace Chars

def push? (a : Chars) (c : Char) : Option Chars :=
  match a.high with
  | none => some { read := c :: a.read }
  | some _ => none

def pushUnit? (a : Chars) (n : Nat) : Option Chars :=
  match a.high with
  | some h => (Text.surrogatePair? h n).map fun c => { read := c :: a.read }
  | none =>
    match Text.charAt? n with
    | some c => some { read := c :: a.read }
    | none => if n < 0xDC00 then some { a with high := some n } else none

def toText? (a : Chars) : Option String :=
  match a.high with
  | none => some (String.ofList a.read.reverse)
  | some _ => none

end Chars

def escaped (c : Char) : Char :=
  if c = 'b' then '\x08'
  else if c = 'f' then '\x0c'
  else if c = 'n' then '\n'
  else if c = 'r' then '\r'
  else if c = 't' then '\t'
  else if c = 'v' then '\x0b'
  else if c = '0' then '\x00'
  else c

def escape? (a : Chars) : List Char → Option (Chars × List Char)
  | [] => none
  | '\r' :: '\n' :: r => some (a, r)
  | c :: r =>
    if isLineEnd c then some (a, r)
    else if c = 'u' then do
      let (n, r) ← Value.codeUnit? r
      (a.pushUnit? n).map fun a => (a, r)
    else if c = 'x' then do
      let (d, r) ← Text.takeHexChar? 2 r
      (a.push? d).map fun a => (a, r)
    else if Number.isDigit c ∧ c ≠ '0' then none
    else (a.push? (escaped c)).map fun a => (a, r)

def text? (quote : Char) (a : Chars) : Nat → List Char → Option (String × List Char)
  | 0, _ => none
  | _ + 1, [] => none
  | fuel + 1, c :: r =>
    if c = quote then a.toText?.map fun s => (s, r)
    else if c = '\\' then
      match escape? a r with
      | some (a, r) => text? quote a fuel r
      | none => none
    else if isLineEnd c then none
    else
      match a.push? c with
      | some a => text? quote a fuel r
      | none => none

def nameRest? (a : Chars) : Nat → List Char → Option (String × List Char)
  | 0, _ => none
  | fuel + 1, cs =>
    match cs with
    | '\\' :: 'u' :: r =>
      match Value.codeUnit? r with
      | some (n, r) =>
        match a.pushUnit? n with
        | some a => nameRest? a fuel r
        | none => none
      | none => none
    | c :: r =>
      if continuesName c then
        match a.push? c with
        | some a => nameRest? a fuel r
        | none => none
      else a.toText?.map fun s => (s, cs)
    | [] => a.toText?.map fun s => (s, [])

def quoted? : List Char → Option (String × List Char)
  | '"' :: r => text? '"' {} (r.length + 1) r
  | '\'' :: r => text? '\'' {} (r.length + 1) r
  | _ => none

def startsKey : List Char → Bool
  | '\\' :: _ => true
  | c :: _ => startsName c
  | [] => false

def key? (cs : List Char) : Option (String × List Char) :=
  match quoted? cs with
  | some r => some r
  | none => if startsKey cs then nameRest? {} (cs.length + 1) cs else none

def wholePart : List Char → List Char × List Char
  | '0' :: r => (['0'], r)
  | cs => (cs.takeWhile Number.isDigit, cs.dropWhile Number.isDigit)

def exponentPart (cs : List Char) : List Char × List Char :=
  match cs with
  | [] => ([], [])
  | e :: r =>
    let sign := (r.take 1).filter fun c => c == '+' || c == '-'
    let digits := r.drop sign.length
    let ds := digits.takeWhile Number.isDigit
    if (e = 'e' ∨ e = 'E') ∧ ds ≠ [] then
      (e :: sign ++ ds, digits.dropWhile Number.isDigit)
    else ([], cs)

/-- A number without a point and an exponent is whole and has to fit a signed word, every other is
    a float. -/
def decimal? (sign cs : List Char) : Option (Value × List Char) := do
  let (whole, r) := wholePart cs
  let (part, r) : List Char × List Char :=
    match r with
    | '.' :: r => ('.' :: r.takeWhile Number.isDigit, r.dropWhile Number.isDigit)
    | r => ([], r)
  let (ex, r) := exponentPart r
  if part.isEmpty && ex.isEmpty then (Number.signed? (sign ++ whole)).map fun n => (.int n, r)
  else
    let x ← Number.float? (sign ++ whole ++ part ++ ex)
    if x.isFinite then some (.float x, r) else none

def hexadecimal? (sign cs : List Char) : Option (Value × List Char) := do
  let n ← Number.naturalIn? 16 (cs.takeWhile Number.isHexDigit)
  if sign.isEmpty ∧ n < 0x100000000 then some (.int n, cs.dropWhile Number.isHexDigit) else none

def special? (sign cs : List Char) : Option (Value × List Char) :=
  match cs with
  | 'I' :: 'n' :: 'f' :: 'i' :: 'n' :: 'i' :: 't' :: 'y' :: r => word "inf" r
  | 'N' :: 'a' :: 'N' :: r => word "nan" r
  | _ => none
where
  word (w : String) (r : List Char) : Option (Value × List Char) :=
    if sign = ['+'] then none
    else (Number.float? (sign ++ w.toList)).map fun x => (.float x, r)

def number? (cs : List Char) : Option (Value × List Char) :=
  let sign := (cs.take 1).filter fun c => c == '+' || c == '-'
  let cs := cs.drop sign.length
  match special? sign cs with
  | some r => some r
  | none =>
    match cs with
    | '0' :: x :: d :: r =>
      if (x = 'x' ∨ x = 'X') ∧ Number.isHexDigit d then hexadecimal? sign (d :: r)
      else decimal? sign cs
    | cs => decimal? sign cs

end CachedCalls.Json5
