import CachedCalls.Text.CodePoint
import CachedCalls.Yaml.Cursor

set_option autoImplicit false

namespace CachedCalls.Yaml

/-- Blocks start and end by indentation, and still have tokens of their own. A tag is its handle and
    what follows it, a tag directive a handle and what it is short for. -/
inductive Token where
  | version
  | tagPrefix (handle meaning : String)
  | documentStart
  | documentEnd
  | blockSequence
  | blockMapping
  | blockEnd
  | flowSequence
  | flowSequenceEnd
  | flowMapping
  | flowMappingEnd
  | item
  | comma
  | key
  | value
  | alias (name : String)
  | anchor (name : String)
  | tag (handle suffix : String)
  | scalar (plain : Bool) (text : String)
  deriving DecidableEq

def isAnchorChar (c : Char) : Bool :=
  !(isBlank c || isBreak c || isFlowMark c || c == '\uFEFF')

def anchorName? (cs : List Char) : Option (String × List Char) :=
  let w := cs.takeWhile isAnchorChar
  if w.isEmpty then none else some (String.ofList w, cs.dropWhile isAnchorChar)

def isWordChar (c : Char) : Bool := c.isAlphanum || c == '_' || c == '-'

def isUriChar (c : Char) : Bool := isWordChar c || "#;/?:@&=+$,.!~*'()[]%".toList.contains c

def isTagChar (c : Char) : Bool := isUriChar c && !isFlowMark c && c != '!'

def byte? : List Char → Option (Nat × List Char)
  | '%' :: a :: b :: r => (Number.naturalIn? 16 [a, b]).map fun n => (n, r)
  | _ => none

def moreBytes? (code : Nat) : Nat → List Char → Option (Nat × List Char)
  | 0, cs => some (code, cs)
  | n + 1, cs => do
    let (b, r) ← byte? cs
    if 0x80 ≤ b ∧ b < 0xC0 then moreBytes? (code * 256 + b) n r else none

/-- A character by its bytes, whose first says how many there are. The bytes together have to be
    the code point of a character. -/
def uriEscape? (cs : List Char) : Option (Char × List Char) := do
  let (b, r) ← byte? cs
  let more ←
    if b < 0x80 then some 0
    else if b < 0xC0 then none
    else if b < 0xE0 then some 1
    else if b < 0xF0 then some 2
    else if b < 0xF8 then some 3
    else none
  let (code, r) ← moreBytes? b more r
  (Text.charAt? code).map fun c => (c, r)

def uri? (isPart : Char → Bool) (acc : List Char) : Nat → List Char → Option (String × List Char)
  | 0, _ => none
  | _ + 1, [] => some (String.ofList acc.reverse, [])
  | fuel + 1, c :: r =>
    if c = '%' then
      match uriEscape? (c :: r) with
      | some (d, r) => uri? isPart (d :: acc) fuel r
      | none => none
    else if isPart c then uri? isPart (c :: acc) fuel r
    else some (String.ofList acc.reverse, c :: r)

def handle? : List Char → Option (String × List Char)
  | '!' :: r =>
    let w := r.takeWhile isWordChar
    match r.dropWhile isWordChar with
    | '!' :: r => some (String.ofList ('!' :: w ++ ['!']), r)
    | r => some (String.ofList ('!' :: w), r)
  | _ => none

def isNamed (handle : String) : Bool := handle.length ≥ 2 && handle.toList.getLast? == some '!'

/-- A tag written in full between angle brackets, behind a handle, or behind an exclamation mark
    alone, which by itself is a tag too. -/
def tag? (cs : List Char) : Option (Token × List Char) :=
  match cs with
  | '!' :: '<' :: r =>
    match uri? isUriChar [] (r.length + 1) r with
    | some (s, '>' :: r) => some (.tag "" s, r)
    | _ => none
  | _ => do
    let (h, r) ← handle? cs
    let (s, r) ← uri? isTagChar [] (r.length + 1) r
    if isNamed h then if s.isEmpty then none else some (.tag h s, r)
    else
      let s := String.ofList (h.toList.drop 1) ++ s
      some (if s.isEmpty then .tag "" "!" else .tag "!" s, r)

def versionNumber? (cs : List Char) : Option (List Char) :=
  let n := (cs.takeWhile Number.isDigit).length
  if n = 0 ∨ 9 < n then none else some (cs.drop n)

def version? (cs : List Char) : Option (Token × List Char) := do
  match ← versionNumber? (cs.dropWhile isBlank) with
  | '.' :: r => (versionNumber? r).map fun r => (.version, r)
  | _ => none

def tagMeaning? : List Char → Option (String × List Char)
  | [] => none
  | c :: r =>
    if c = '!' then uri? isUriChar ['!'] (r.length + 1) r
    else if isTagChar c then uri? isUriChar [] (r.length + 2) (c :: r)
    else none

def tagPrefix? (cs : List Char) : Option (Token × List Char) := do
  let (h, r) ← handle? (cs.dropWhile isBlank)
  if h ≠ "!" ∧ !isNamed h then none
  else
    let (m, r) ← tagMeaning? (r.dropWhile isBlank)
    if atGap r then some (.tagPrefix h m, r) else none

def directive? (cs : List Char) : Option (Token × List Char) :=
  let name := cs.takeWhile isWordChar
  let r := cs.dropWhile isWordChar
  if name.isEmpty || !atGap r then none
  else if name = ['Y', 'A', 'M', 'L'] then version? r
  else if name = ['T', 'A', 'G'] then tagPrefix? r
  else some (.tagPrefix "" "", r.dropWhile fun c => !isBreak c)

end CachedCalls.Yaml
