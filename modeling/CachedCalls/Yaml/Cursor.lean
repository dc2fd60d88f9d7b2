set_option autoImplicit false

namespace CachedCalls.Yaml

def isBlank (c : Char) : Bool := c == ' ' || c == '\t'

def isBreak (c : Char) : Bool := c == '\n' || c == '\r'

def isFlowMark (c : Char) : Bool := c ∈ [',', '[', ']', '\x7b', '\x7d']

def atBreak : List Char → Bool
  | [] => true
  | c :: _ => isBreak c

def atGap : List Char → Bool
  | [] => true
  | c :: _ => isBlank c || isBreak c

def atMarker (mark : Char) : List Char → Bool
  | a :: b :: c :: r => a == mark && b == mark && c == mark && atGap r
  | _ => false

/-- Where a text stands: what follows, how much lies before, and the line and the column. A line is
    fresh as long as there was only white space on it. -/
structure Cursor where
  rest : List Char
  index : Nat := 0
  line : Nat := 0
  col : Nat := 0
  fresh : Bool := true

namespace Cursor

def blanks (k : Cursor) (n : Nat) : Cursor :=
  { k with rest := k.rest.drop n, index := k.index + n, col := k.col + n }

def steps (k : Cursor) (n : Nat) : Cursor := { k.blanks n with fresh := false }

def upTo (k : Cursor) (rest : List Char) : Cursor := k.steps (k.rest.length - rest.length)

def newline (k : Cursor) : Cursor :=
  let n := if ['\r', '\n'].isPrefixOf k.rest then 2 else 1
  { rest := k.rest.drop n, index := k.index + n, line := k.line + 1, col := 0, fresh := true }

def lineEnd (k : Cursor) : Cursor :=
  k.steps (k.rest.takeWhile fun c => !isBreak c).length

def atDocumentMarker (k : Cursor) : Bool :=
  k.col == 0 && (atMarker '-' k.rest || atMarker '.' k.rest)

/-- Past white space and a comment, which white space has to be in front of; with what was
    passed. -/
def skipBlanks? (k : Cursor) : Option (List Char × Cursor) :=
  let gap := k.rest.takeWhile isBlank
  let k := k.blanks gap.length
  if k.rest.head? = some '#' then if gap.isEmpty then none else some (gap, k.lineEnd)
  else some (gap, k)

end Cursor

end CachedCalls.Yaml
