import CachedCalls.Text.CodePoint
import CachedCalls.Yaml.Cursor

set_option autoImplicit false

namespace CachedCalls.Yaml

/-- White space and line breaks between two parts of a text: the white space back to front, how
    many line breaks came first and how many after. -/
structure Gap where
  blanks : List Char := []
  first : Nat := 0
  more : Nat := 0

namespace Gap

def blank (g : Gap) (c : Char) : Gap := { g with blanks := c :: g.blanks }

def lineBreak (g : Gap) (folded : Bool) : Gap :=
  if folded then { g with more := g.more + 1 }
  else { g with blanks := [], first := g.first + 1 }

def text (g : Gap) (folded : Bool) : List Char :=
  if !folded then g.blanks
  else if g.first = 0 ∨ 0 < g.more then List.replicate g.more '\n'
  else [' ']

end Gap

def plainRun (flow : Bool) : List Char → List Char
  | [] => []
  | c :: r =>
    if isBlank c || isBreak c || (flow && isFlowMark c) then []
    else if c == ':' && (atGap r || (flow && r.head?.any isFlowMark)) then []
    else c :: plainRun flow r

/-- Past a gap. To the left of `limit` a tab may stand only on a line that holds nothing. -/
def plainGap? (limit : Int) (g : Gap) : Nat → Cursor → Option (Gap × Cursor)
  | 0, _ => none
  | fuel + 1, k =>
    match k.rest with
    | [] => some (g, k)
    | c :: _ =>
      if isBlank c then
        if !k.fresh then plainGap? limit (g.blank c) fuel (k.blanks 1)
        else if c = '\t' ∧ k.col < limit then
          match k.skipBlanks? with
          | some (_, k) => if atBreak k.rest then plainGap? limit g fuel k else none
          | none => none
        else plainGap? limit g fuel (k.blanks 1)
      else if isBreak c then plainGap? limit (g.lineBreak k.fresh) fuel k.newline
      else some (g, k)

def plainParts? (flow : Bool) (limit : Int) (acc : List Char) (g : Gap) :
    Nat → Cursor → Option (List Char × Cursor)
  | 0, _ => none
  | fuel + 1, k =>
    if k.atDocumentMarker ∨ k.rest.head? = some '#' then some (acc, k)
    else if flow ∧ k.rest.head? = some '-' ∧ (k.rest.drop 1).head?.any isFlowMark then none
    else
      let run := plainRun flow k.rest
      let (acc, g, k) : List Char × Gap × Cursor :=
        if run.isEmpty then (acc, g, k)
        else (run.reverse ++ g.text k.fresh ++ acc, {}, k.steps run.length)
      if k.rest.isEmpty || !atGap k.rest then some (acc, k)
      else
        match plainGap? limit g (k.rest.length + 1) k with
        | none => none
        | some (g, k) =>
          if !flow ∧ k.col < limit then some (acc, k) else plainParts? flow limit acc g fuel k

def plain? (flow : Bool) (indent : Int) (k : Cursor) : Option (String × Cursor) :=
  let limit := indent + 1
  if flow ∧ k.col < limit then none
  else
    match plainParts? flow limit [] {} (k.rest.length + 1) k with
    | some (acc, k) => if acc.isEmpty then none else some (String.ofList acc.reverse, k)
    | none => none

def codeWidth? (c : Char) : Option Nat :=
  if c = 'x' then some 2 else if c = 'u' then some 4 else if c = 'U' then some 8 else none

def escapes : List (Char × Char) :=
  [('0', '\x00'), ('a', '\x07'), ('b', '\x08'), ('t', '\t'), ('\t', '\t'), ('n', '\n'),
    ('v', '\x0b'), ('f', '\x0c'), ('r', '\r'), ('e', '\x1b'), (' ', ' '), ('"', '"'), ('/', '/'),
    ('\\', '\\'), ('N', '\u0085'), ('_', '\u00a0'), ('L', '\u2028'), ('P', '\u2029')]

def escape? : List Char → Option (Char × List Char)
  | [] => none
  | c :: r =>
    match codeWidth? c with
    | some n => Text.takeHexChar? n r
    | none => (escapes.lookup c).map fun d => (d, r)

/-- The part of a text up to white space or the closing quote. It also says whether the line break
    after a backslash ended it. -/
def quotedRun? (quote : Char) (acc : List Char) :
    Nat → Cursor → Option (List Char × Bool × Cursor)
  | 0, _ => none
  | fuel + 1, k =>
    match k.rest with
    | [] => some (acc, false, k)
    | c :: r =>
      if isBlank c || isBreak c then some (acc, false, k)
      else if c = quote then
        if quote = '\'' ∧ r.head? = some '\'' then quotedRun? quote (c :: acc) fuel (k.steps 2)
        else some (acc, false, k)
      else if c = '\\' ∧ quote = '"' then
        if r.head?.any isBreak then some (acc, true, (k.steps 1).newline)
        else
          match escape? r with
          | some (d, r) => quotedRun? quote (d :: acc) fuel (k.upTo r)
          | none => none
      else quotedRun? quote (c :: acc) fuel (k.steps 1)

def quotedGap? (indent : Int) (folded : Bool) (g : Gap) :
    Nat → Cursor → Option (Gap × Bool × Cursor)
  | 0, _ => none
  | fuel + 1, k =>
    match k.rest with
    | [] => some (g, folded, k)
    | c :: _ =>
      if isBlank c then
        if !folded then quotedGap? indent folded (g.blank c) fuel (k.blanks 1)
        else if c = '\t' ∧ k.col < indent then none
        else quotedGap? indent folded g fuel (k.blanks 1)
      else if isBreak c then quotedGap? indent true (g.lineBreak folded) fuel k.newline
      else some (g, folded, k)

def quotedParts? (quote : Char) (indent : Int) (acc : List Char) :
    Nat → Cursor → Option (List Char × Cursor)
  | 0, _ => none
  | fuel + 1, k =>
    if k.atDocumentMarker ∨ k.rest = [] ∨ k.col < indent then none
    else
      match quotedRun? quote acc (k.rest.length + 1) k with
      | none => none
      | some (acc, folded, k) =>
        if k.rest.head? = some quote then some (acc, k.steps 1)
        else
          match quotedGap? indent folded {} (k.rest.length + 1) k with
          | some (g, folded, k) => quotedParts? quote indent (g.text folded ++ acc) fuel k
          | none => none

/-- A text between quotes. The line may end after it; else a colon may follow, on the line where
    the text began if it is not between brackets, or there what separates or closes. -/
def quoted? (flow : Bool) (indent : Int) (k : Cursor) : Option (String × Cursor) :=
  match k.rest with
  | [] => none
  | quote :: _ => do
    let (acc, k') ← quotedParts? quote indent [] (k.rest.length + 1) (k.steps 1)
    let (_, k') ← k'.skipBlanks?
    let fits : Bool :=
      match k'.rest with
      | [] => true
      | c :: _ =>
        isBreak c || (flow && c ∈ [',', '\x7d', ']', ':']) ||
          (!flow && c == ':' && k'.line == k.line)
    if fits then some (String.ofList acc.reverse, k') else none

end CachedCalls.Yaml
