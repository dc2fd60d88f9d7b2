import CachedCalls.Yaml.Token

/-!
What is kept while a YAML document is taken apart into tokens: the indentation that is open, and
what may turn out to be a key. A key shows only by the colon after it, so its token is put in later,
in front of what was read since.
-/

set_option autoImplicit false

namespace CachedCalls.Yaml

/-- Something that is a key if a colon follows: how many tokens came before it, and where it
    starts. It has to be one if it stands where only a key can. -/
structure Candidate where
  required : Bool
  number : Nat
  index : Nat
  line : Nat
  col : Nat

structure Level where
  outer : Int
  ends : Bool

/-- The tokens are back to front. `candidates` has one place for each level of brackets, and one
    for what is outside. `property` is the column of the last token if it is an anchor or a tag.
    `adjacent` is the place where a colon between brackets needs no gap after it, `braces` whether
    a brace or a question mark was met, `pair` whether a pair without braces is open. -/
structure Layout where
  tokens : List Token := []
  indent : Int := -1
  levels : List Level := []
  flow : Nat := 0
  keyAllowed : Bool := true
  candidates : List (Option Candidate) := [none]
  adjacent : Nat := 0
  braces : Bool := false
  pair : Bool := false
  property : Option Nat := none

namespace Layout

def inFlow (s : Layout) : Bool := s.flow != 0

def push (s : Layout) (t : Token) : Layout :=
  { s with tokens := t :: s.tokens, property := none }

def insertAt (s : Layout) (n : Nat) (t : Token) : Layout :=
  let later := s.tokens.length - n
  { s with tokens := s.tokens.take later ++ t :: s.tokens.drop later }

def allowKey (s : Layout) (b : Bool) : Layout := { s with keyAllowed := b }

def candidate? (s : Layout) : Option Candidate := s.candidates.head?.join

def setCandidate (s : Layout) (c : Option Candidate) : Layout :=
  { s with candidates := c :: s.candidates.drop 1 }

def saveCandidate (s : Layout) (k : Cursor) : Layout :=
  if s.keyAllowed then
    s.setCandidate (some {
      required := !s.inFlow && s.indent == k.col && s.levels.head?.any (·.ends)
      number := s.tokens.length
      index := k.index
      line := k.line
      col := k.col })
  else s

def dropCandidate? (s : Layout) : Option Layout :=
  if s.candidate?.any (·.required) then none else some (s.setCandidate none)

/-- Outside brackets, a key is on one line and not longer than 1024 characters. -/
def dropStale? (s : Layout) (k : Cursor) : Option Layout :=
  match s.candidate? with
  | none => some s
  | some c =>
    if !s.inFlow && (c.line < k.line || c.index + 1024 < k.index) then s.dropCandidate? else some s

def openLevel (s : Layout) (indent : Int) (ends : Bool) : Layout :=
  { s with indent, levels := { outer := s.indent, ends } :: s.levels }

def closeLevels (s : Layout) (col : Int) : Layout :=
  if s.inFlow then s else go s.levels s
where
  go : List Level → Layout → Layout
    | [], s => s
    | l :: ls, s =>
      if s.indent ≤ col then s
      else
        let s := { s with indent := l.outer, levels := ls }
        go ls (if l.ends then s.push .blockEnd else s)

/-- A level that ends with no token was only meant for what goes on over more lines. -/
def closeInner (s : Layout) : Layout := go s.levels s
where
  go : List Level → Layout → Layout
    | [], s => s
    | l :: ls, s => if l.ends then s else go ls { s with indent := l.outer, levels := ls }

def openBlock (s : Layout) (col : Int) (n : Nat) (t : Token) : Layout :=
  if s.inFlow then s
  else
    let s : Layout :=
      match s.levels with
      | l :: ls =>
        if s.indent ≤ col ∧ !l.ends then { s with indent := l.outer, levels := ls } else s
      | [] => s
    if s.indent < col then (s.insertAt n t).openLevel col true else s

def openInner (s : Layout) : Layout :=
  if !s.inFlow && s.levels.head?.any (·.ends) then s.openLevel (s.indent + 1) false else s

def closePair (s : Layout) : Layout :=
  if s.pair then { s.push .flowMappingEnd with pair := false, braces := false } else s

/-- Past white space, line breaks and comments. Outside brackets, a tab may not indent what is
    inside a block. -/
def skipGap? : Nat → Layout → Cursor → Option (Layout × Cursor)
  | 0, _, _ => none
  | fuel + 1, s, k =>
    match k.rest with
    | [] => some (s, k)
    | c :: _ =>
      if c = '\t' ∧ !s.levels.isEmpty ∧ k.fresh ∧ k.col < s.indent then
        match k.skipBlanks? with
        | some (_, k) => if atBreak k.rest then skipGap? fuel s k else none
        | none => none
      else if isBlank c then skipGap? fuel s (k.blanks 1)
      else if isBreak c then
        skipGap? fuel (if s.inFlow then s else s.allowKey true) k.newline
      else if c = '#' then skipGap? fuel s k.lineEnd
      else some (s, k)

def skip? (s : Layout) (k : Cursor) : Option (Layout × Cursor) :=
  skipGap? (k.rest.length + 1) s k

def skipSpaces : Nat → Layout → Cursor → Layout × Cursor
  | 0, s, k => (s, k)
  | fuel + 1, s, k =>
    match k.rest with
    | [] => (s, k)
    | c :: _ =>
      if c = ' ' then skipSpaces fuel s (k.blanks 1)
      else if isBreak c then
        skipSpaces fuel (if s.inFlow then s else s.allowKey true) k.newline
      else if c = '#' then skipSpaces fuel s k.lineEnd
      else (s, k)

end Layout

end CachedCalls.Yaml
