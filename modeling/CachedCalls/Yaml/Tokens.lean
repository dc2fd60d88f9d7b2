import CachedCalls.Yaml.Block
import CachedCalls.Yaml.Flow
import CachedCalls.Yaml.Layout

set_option autoImplicit false

namespace CachedCalls.Yaml

abbrev Scanned := Option (Layout × Cursor)

namespace Layout

def flowLimit : Nat := 255

def indicator? (s : Layout) (t : Token) (k : Cursor) : Scanned := do
  let (_, k) ← (k.steps 1).skipBlanks?
  some (s.push t, k)

def openFlow? (s : Layout) (t : Token) (k : Cursor) : Scanned :=
  let s := (s.saveCandidate k).openInner
  if s.flow = flowLimit then none
  else
    indicator? { s with
      candidates := none :: s.candidates
      flow := s.flow + 1
      keyAllowed := true
      braces := s.braces || t == .flowMapping } t k

def closeFlow? (s : Layout) (t : Token) (k : Cursor) : Scanned := do
  let s ← s.dropCandidate?
  let s := if s.inFlow then { s with flow := s.flow - 1, candidates := s.candidates.drop 1 } else s
  let (s, k) ← indicator? (s.allowKey false).closePair t k
  some (if s.inFlow then { s with adjacent := k.index } else s, k)

def comma? (s : Layout) (k : Cursor) : Scanned := do
  let s ← s.dropCandidate?
  indicator? (s.allowKey true).closePair .comma k

def item? (s : Layout) (k : Cursor) : Scanned :=
  if s.inFlow || !s.keyAllowed || (s.property == some 0 && k.col == 0 && -1 < s.indent) then none
  else do
    let s := s.openBlock k.col s.tokens.length .blockSequence
    let (gap, k) ← (k.steps 1).skipBlanks?
    if gap.contains '\t' && k.rest.head? == some '-' && atGap (k.rest.drop 1) then none
    else
      let s :=
        if k.rest.head?.any (fun c => isBreak c || isFlowMark c) then s.openInner else s
      let s ← s.dropCandidate?
      some ((s.allowKey true).push .item, k)

def explicitKey? (s : Layout) (k : Cursor) : Scanned :=
  if !s.inFlow && !s.keyAllowed then none
  else do
    let s :=
      if s.inFlow then { s with braces := true }
      else s.openBlock k.col s.tokens.length .blockMapping
    let s ← s.dropCandidate?
    let k := k.steps 1
    if k.rest.head?.any fun c => c == ' ' || isBreak c then
      let (s, k) := skipSpaces (k.rest.length + 1) (s.allowKey !s.inFlow) k
      if k.rest.head? = some '\t' then none else some (s.push .key, k)
    else none

def tabbed? (k : Cursor) : Option (Bool × Cursor) :=
  if k.rest.head? = some '\t' then do
    let (gap, k) ← k.skipBlanks?
    some (!gap.contains ' ' && k.rest.head?.any isWordChar, k)
  else some (false, k)

/-- A colon: after a candidate, which is a key then, or after nothing. Between brackets without
    braces it makes a pair. -/
def colon? (s : Layout) (k : Cursor) : Scanned := do
  let start := k
  let s := { s with pair := s.inFlow && !s.braces }
  let (tab, k) ← tabbed? (k.steps 1)
  if tab then none
  else
    match s.candidate? with
    | some c =>
      if s.pair && c.line < start.line then none
      else
        let s := s.insertAt c.number .key
        let s := if s.pair then s.insertAt c.number .flowMapping else s
        let s := ((s.openBlock c.col c.number .blockMapping).openInner.setCandidate none)
        some ((s.allowKey false).push .value, k)
    | none =>
      let s := if s.pair then s.push .flowMapping else s
      if !s.inFlow && !s.keyAllowed then none
      else
        let s := (s.openBlock start.col s.tokens.length .blockMapping).openInner
        some ((s.allowKey !s.inFlow).push .value, k)

def startNode (s : Layout) (k : Cursor) : Layout := (s.saveCandidate k).allowKey false

def anchor? (s : Layout) (t : String → Token) (k : Cursor) : Scanned := do
  let (name, r) ← anchorName? (k.rest.drop 1)
  some ({ (s.startNode k).push (t name) with property := some k.col }, k.upTo r)

def alias? (s : Layout) (k : Cursor) : Scanned := do
  let (name, r) ← anchorName? (k.rest.drop 1)
  some ((s.startNode k).push (.alias name), k.upTo r)

def tagged? (s : Layout) (k : Cursor) : Scanned := do
  let (t, r) ← tag? k.rest
  if atGap r || (s.inFlow && r.head?.any isFlowMark) then
    some ({ (s.startNode k).push t with property := some k.col }, k.upTo r)
  else none

def blockText? (s : Layout) (k : Cursor) : Scanned := do
  let s := ((s.saveCandidate k).allowKey true).closeInner
  let (text, k) ← block? s.indent k
  some (s.push (.scalar false text), k)

def quotedText? (s : Layout) (k : Cursor) : Scanned := do
  let s := s.startNode k
  let (text, k) ← quoted? s.inFlow s.indent k
  let (s, k) ← s.skip? k
  some ({ s with adjacent := k.index }.push (.scalar false text), k)

def plainText? (s : Layout) (k : Cursor) : Scanned := do
  let s := (s.startNode k).closeInner
  let (text, k) ← plain? s.inFlow s.indent k
  some ((if k.fresh then s.allowKey true else s).push (.scalar true text), k)

def directiveLine? (s : Layout) (k : Cursor) : Scanned := do
  let s ← (s.closeLevels (-1)).dropCandidate?
  let (t, r) ← directive? (k.rest.drop 1)
  let (_, k) ← (k.upTo r).skipBlanks?
  if atBreak k.rest then
    some ((s.allowKey false).push t, if k.rest.isEmpty then k else k.newline)
  else none

def documentMarker? (s : Layout) (k : Cursor) : Scanned := do
  let s ← (s.closeLevels (-1)).dropCandidate?
  let s := s.allowKey false
  if k.rest.head? = some '-' then some (s.push .documentStart, k.steps 3)
  else
    let (_, k) ← (k.steps 3).skipBlanks?
    if atBreak k.rest then some (s.push .documentEnd, k) else none

/-- A colon starts a value before a gap, and between brackets also before one of them or right
    after what may be a key by itself; but then no bracket may open after a word. -/
def startsValue (s : Layout) (k : Cursor) : Bool :=
  let r := k.rest.drop 1
  k.rest.head? == some ':' &&
    (atGap r || (s.inFlow && (r.head?.any isFlowMark || k.index == s.adjacent)))

def value? (s : Layout) (k : Cursor) : Scanned :=
  let r := k.rest.drop 1
  if !atGap r && k.index != s.adjacent && r.head?.any (fun c => c == '[' || c == '\x7b') then none
  else s.colon? k

def token? (s : Layout) (k : Cursor) : Scanned :=
  match k.rest with
  | [] => none
  | c :: r =>
    if k.col = 0 ∧ c = '%' then s.directiveLine? k
    else if k.atDocumentMarker then s.documentMarker? k
    else if k.col < s.indent then none
    else if c = '[' then s.openFlow? .flowSequence k
    else if c = '\x7b' then s.openFlow? .flowMapping k
    else if c = ']' then s.closeFlow? .flowSequenceEnd k
    else if c = '\x7d' then s.closeFlow? .flowMappingEnd k
    else if c = ',' then s.comma? k
    else if c = '-' ∧ atGap r then s.item? k
    else if c = '?' ∧ atGap r then s.explicitKey? k
    else if s.startsValue k then s.value? k
    else if c = '*' then s.alias? k
    else if c = '&' then s.anchor? .anchor k
    else if c = '!' then s.tagged? k
    else if (c = '|' ∨ c = '>') ∧ !s.inFlow then s.blockText? k
    else if c = '"' ∨ c = '\'' then s.quotedText? k
    else if c = '%' ∨ c = '@' ∨ c = '\x60' then none
    else s.plainText? k

def finish? (s : Layout) : Option (List Token) :=
  if s.candidates.any fun c => c.any (·.required) then none
  else some (s.closeLevels (-1)).tokens.reverse

def tokens? : Nat → Layout → Cursor → Option (List Token)
  | 0, _, _ => none
  | fuel + 1, s, k => do
    let (s, k) ← s.skip? k
    let s ← s.dropStale? k
    let s := s.closeLevels k.col
    if k.rest.isEmpty then s.finish?
    else
      let (s, k) ← s.token? k
      tokens? fuel s k

end Layout

def tokens? (text : String) : Option (List Token) :=
  let cs := text.toList.takeWhile (· != '\x00')
  Layout.tokens? (cs.length + 1) {} { rest := cs }

end CachedCalls.Yaml
