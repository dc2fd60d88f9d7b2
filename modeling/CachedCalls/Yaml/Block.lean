import CachedCalls.Number.Literal
import CachedCalls.Yaml.Cursor

set_option autoImplicit false

namespace CachedCalls.Yaml

inductive Chomping where
  | clip
  | strip
  | keep
  deriving DecidableEq

def blockHeader? (cs : List Char) : Option (Chomping × Option Nat × List Char) :=
  let (c, r) := chomping cs
  match increment r with
  | some (0, _) => none
  | some (n, r) =>
    if c = .clip then
      let (c, r) := chomping r
      some (c, some n, r)
    else some (c, some n, r)
  | none => some (c, none, r)
where
  chomping : List Char → Chomping × List Char
    | '+' :: r => (.keep, r)
    | '-' :: r => (.strip, r)
    | r => (.clip, r)
  increment : List Char → Option (Nat × List Char)
    | d :: r => if Number.isDigit d then some (Number.digitValue d, r) else none
    | [] => none

def leadingLines (far count : Nat) : Nat → Cursor → Nat × Nat × Cursor
  | 0, k => (far, count, k)
  | fuel + 1, k =>
    let k := k.blanks (k.rest.takeWhile (· == ' ')).length
    let far := max far k.col
    if k.rest.head?.any isBreak then leadingLines far (count + 1) fuel k.newline
    else (far, count, k)

def emptyLines (indent count : Nat) : Nat → Cursor → Nat × Cursor
  | 0, k => (count, k)
  | fuel + 1, k =>
    let k := k.blanks (min (indent - k.col) (k.rest.takeWhile (· == ' ')).length)
    if k.rest.head?.any isBreak then emptyLines indent (count + 1) fuel k.newline else (count, k)

/-- A text while it is read, back to front: `last` says whether its last line has ended, `empty`
    how many empty lines came after, `indented` whether that last line began with white space. -/
structure BlockText where
  read : List Char := []
  last : Bool := false
  empty : Nat := 0
  indented : Bool := false

namespace BlockText

def breaks (t : BlockText) : List Char :=
  List.replicate (t.empty + (if t.last then 1 else 0)) '\n'

/-- With the next line. Between two lines that begin with no white space, the line break is
    folded if the text is. -/
def line (t : BlockText) (folded : Bool) (l : List Char) : BlockText :=
  let indented := l.head?.any isBlank
  let gap :=
    if folded && t.last && !t.indented && !indented then
      if t.empty = 0 then [' '] else List.replicate t.empty '\n'
    else t.breaks
  { read := l.reverse ++ gap ++ t.read, indented }

/-- The whole text. The end of the document counts as a line break if `onLine` says that it stands
    on a line of the text. -/
def close (t : BlockText) (c : Chomping) (onLine : Bool) : String :=
  let last := (if t.last then ['\n'] else []) ++ (if onLine then ['\n'] else [])
  String.ofList (t.read.reverse ++
    match c with
    | .strip => []
    | .clip => last
    | .keep => last ++ List.replicate t.empty '\n')

end BlockText

def blockLines (folded : Bool) (indent : Nat) (t : BlockText) :
    Nat → Cursor → BlockText × Cursor
  | 0, k => (t, k)
  | fuel + 1, k =>
    if k.col ≠ indent ∨ k.rest = [] ∨ (indent = 0 ∧ atMarker '.' k.rest) then (t, k)
    else
      let l := k.rest.takeWhile fun c => !isBreak c
      let t := t.line folded l
      let k := k.lineEnd
      if k.rest.isEmpty then (t, k)
      else
        let (n, k) := emptyLines indent 0 (k.rest.length + 1) k.newline
        blockLines folded indent { t with last := true, empty := n } fuel k

def emptyBlock (c : Chomping) (first : Bool) (empty : Nat) : String :=
  let first := if first then "\n" else ""
  match c with
  | .strip => ""
  | .clip => first
  | .keep => if empty = 0 then first else String.ofList (List.replicate empty '\n')

def block? (indent : Int) (k : Cursor) : Option (String × Cursor) := do
  let folded := k.rest.head? == some '>'
  let (c, increment, r) ← blockHeader? (k.rest.drop 1)
  let start := k.line
  let (_, k) ← (k.upTo r).skipBlanks?
  if !atBreak k.rest then none
  else
    let first := !k.rest.isEmpty
    let k := if first then k.newline else k
    if k.rest.head? = some '\t' then none
    else
      let (own, empty, k) : Nat × Nat × Cursor :=
        match increment with
        | some n =>
          let own := (max indent 0).toNat + n
          let (empty, k) := emptyLines own 0 (k.rest.length + 1) k
          (own, empty, k)
        | none =>
          let (far, empty, k) := leadingLines 0 0 (k.rest.length + 1) k
          (max far (indent + 1).toNat, empty, k)
      if k.rest.isEmpty then
        some (if k.line = start then "" else emptyBlock c first empty, k)
      else if k.col < own ∧ indent < k.col then none
      else
        let (t, k) := blockLines folded own { empty } (k.rest.length + 1) k
        some (t.close c (k.rest.isEmpty && decide (max own 1 ≤ k.col)), k)

end CachedCalls.Yaml
