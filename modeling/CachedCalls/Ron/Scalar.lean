import CachedCalls.Text.CodePoint
import CachedCalls.Value.Basic

set_option autoImplicit false

namespace CachedCalls.Ron

def isGap (c : Char) : Bool := c == ' ' || c == '\t' || c == '\n' || c == '\r'

def commentEnd? (inside : Nat) : List Char → Option (List Char)
  | [] => none
  | '/' :: '*' :: r => commentEnd? (inside + 1) r
  | '*' :: '/' :: r => if inside = 0 then some r else commentEnd? (inside - 1) r
  | _ :: r => commentEnd? inside r

def skipGap? : Nat → List Char → Option (List Char)
  | 0, _ => none
  | fuel + 1, cs =>
    match cs.dropWhile isGap with
    | '/' :: '/' :: r => skipGap? fuel (r.dropWhile (· != '\n'))
    | '/' :: '*' :: r => (commentEnd? 0 r).bind (skipGap? fuel)
    | '/' :: _ => none
    | r => some r

def skip? (cs : List Char) : Option (List Char) := skipGap? (cs.length + 1) cs

def startsName (c : Char) : Bool := c.isAlpha || c == '_'

def continuesName (c : Char) : Bool := c.isAlphanum || c == '_'

def continuesRawName (c : Char) : Bool := continuesName c || c == '.' || c == '+' || c == '-'

/-- A name, which is not cut off before a character that only raw names may hold. -/
def name? (cs : List Char) : Option (String × List Char) :=
  match cs with
  | ['r'] => none
  | 'r' :: '"' :: _ => none
  | 'r' :: '#' :: r => take continuesRawName r
  | c :: _ =>
    if startsName c ∧ cs.takeWhile continuesName = cs.takeWhile continuesRawName then
      take continuesName cs
    else none
  | [] => none
where
  take (p : Char → Bool) (cs : List Char) : Option (String × List Char) :=
    if (cs.takeWhile p).isEmpty then none
    else some (String.ofList (cs.takeWhile p), cs.dropWhile p)

def after? (w : String) (cs : List Char) : Option (List Char) :=
  let r := cs.drop w.length
  if w.toList.isPrefixOf cs && !(r.head?.any continuesName) then some r else none

def escape? : List Char → Option (Char × List Char)
  | 'x' :: r => Text.takeHexChar? 2 r
  | 'u' :: '\x7b' :: r =>
    let ds := (r.takeWhile (· != '\x7d')).take 6
    match r.drop ds.length with
    | '\x7d' :: r => (Text.charOfHex? ds).map fun d => (d, r)
    | _ => none
  | c :: r =>
    if c = '\'' ∨ c = '"' ∨ c = '\\' then some (c, r)
    else if c = 'n' then some ('\n', r)
    else if c = 'r' then some ('\r', r)
    else if c = 't' then some ('\t', r)
    else if c = '0' then some ('\x00', r)
    else none
  | [] => none

def escapedText? (acc : List Char) : Nat → List Char → Option (String × List Char)
  | 0, _ => none
  | _ + 1, [] => none
  | fuel + 1, c :: r =>
    if c = '"' then some (String.ofList acc.reverse, r)
    else if c = '\\' then
      match escape? r with
      | some (d, r) => escapedText? (d :: acc) fuel r
      | none => none
    else escapedText? (c :: acc) fuel r

def rawText? (closing acc : List Char) : List Char → Option (String × List Char)
  | [] => none
  | c :: r =>
    if closing.isPrefixOf (c :: r) then
      some (String.ofList acc.reverse, (c :: r).drop closing.length)
    else rawText? closing (c :: acc) r

def character? : List Char → Option (String × List Char)
  | '\\' :: r =>
    match escape? r with
    | some (d, '\'' :: r) => some (String.singleton d, r)
    | _ => none
  | c :: '\'' :: r => if c = '\'' then none else some (String.singleton c, r)
  | _ => none

def text? : List Char → Option (String × List Char)
  | '"' :: r => escapedText? [] (r.length + 1) r
  | '\'' :: r => character? r
  | 'r' :: r =>
    let marks := r.takeWhile (· == '#')
    match r.drop marks.length with
    | '"' :: r => rawText? ('"' :: marks) [] r
    | _ => none
  | _ => none

def isWholeChar (c : Char) : Bool := Number.isHexDigit c || c == '_'

def isFloatChar (c : Char) : Bool := Number.isDigit c || c ∈ ['e', 'E', '.', '+', '-', '_']

def float? (cs : List Char) : Option (Value × List Char) :=
  let w := cs.takeWhile isFloatChar
  (Number.float? w).map fun x => (.float x, cs.dropWhile isFloatChar)

def baseOf : List Char → Nat
  | '0' :: 'x' :: _ => 16
  | '0' :: 'b' :: _ => 2
  | '0' :: 'o' :: _ => 8
  | _ => 10

/-- A whole number below 2^64, or from -2^63 up to 2^63 if a sign is written, and none where a
    digit is none of the base. Before that shows, a number that leaves its range is read as a
    float. -/
def whole? (cs : List Char) : Option (Value × List Char) :=
  let sign := (cs.take 1).filter fun c => c == '+' || c == '-'
  let r := cs.drop sign.length
  let base := baseOf r
  let r := if base = 10 then r else r.drop 2
  let w := r.takeWhile isWholeChar
  let ds := w.filter (· != '_')
  let good := ds.takeWhile fun d => (Number.digitValueIn? base d).isSome
  let inRange (n : Nat) : Bool :=
    if sign.isEmpty then n < Number.wordCount
    else Number.isSigned (if sign = ['-'] then -(n : Int) else n)
  let n := (Number.naturalIn? base good).getD 0
  if w.isEmpty || w.head? == some '_' then none
  else if good.length < ds.length then if inRange (base * n) then none else float? cs
  else if inRange n then
    let v : Int := if sign = ['-'] then -(n : Int) else n
    some (if Number.isSigned v then .int v else .float (Number.nearest false n 0),
      r.dropWhile isWholeChar)
  else float? cs

def number? (cs : List Char) : Option (Value × List Char) :=
  let sign := (cs.take 1).filter fun c => c == '+' || c == '-'
  let r := cs.drop sign.length
  if (r.takeWhile isWholeChar).length < (r.takeWhile isFloatChar).length then float? cs
  else whole? cs

end CachedCalls.Ron
