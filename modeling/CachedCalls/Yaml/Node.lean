import CachedCalls.Yaml.Scalar
import CachedCalls.Yaml.Tokens

set_option autoImplicit false

namespace CachedCalls.Yaml

/-- A scalar that its tag does not allow is `bad`. Of a collection only its value counts, which it
    has none of if something in it has no value or no name. -/
inductive Node where
  | bad
  | scalar (s : Scalar)
  | collection (v : Option Value)

namespace Node

def empty : Node := .scalar .null

def toValue? : Node → Option Value
  | .bad => some .null
  | .scalar s => s.toValue?
  | .collection v => v

def ofItems (ns : List Node) : Node := .collection ((ns.mapM toValue?).map .arr)

def field? : Node × Node → Option (String × Value)
  | (.scalar k, n) => do some (← k.name?, ← n.toValue?)
  | _ => none

/-- Keys and values in turn. A bad node is no key: what comes after it is taken for one. -/
def pairs : List Node → List (Node × Node)
  | [] => []
  | .bad :: ns => pairs ns
  | [_] => []
  | k :: n :: ns => (k, n) :: pairs ns

def scalar? : Node → Option Scalar
  | .scalar s => some s
  | _ => none

def ofFields? (ns : List Node) : Option Node :=
  let ps := pairs ns
  let keys := ps.filterMap fun p => p.1.scalar?
  if keys.eraseDups.length = keys.length then
    some (.collection ((ps.mapM field?).map Value.record))
  else none

end Node

/-- The tokens that are left. `anchors` are names with a number each, which the name that was given
    last stands for; `nodes` are the nodes by the numbers of their anchors. -/
structure Reader where
  tokens : List Token
  meanings : List (String × String) := []
  anchors : List (String × Nat) := []
  nodes : List (Nat × Node) := []

structure Properties where
  anchor : Option Nat := none
  tag : Option (String × String) := none

namespace Reader

def next (s : Reader) : Option Token := s.tokens.head?

def drop (s : Reader) : Reader := { s with tokens := s.tokens.drop 1 }

def atAny (s : Reader) (ts : List Token) : Bool := s.next.any ts.contains

def nameAnchor (s : Reader) (name : String) : Nat × Reader :=
  (s.anchors.length, { s with anchors := (name, s.anchors.length) :: s.anchors })

def setAnchor (s : Reader) (anchor : Option Nat) (n : Node) : Reader :=
  match anchor with
  | some a => { s with nodes := (a, n) :: s.nodes }
  | none => s

/-- The node of an alias, which is bad inside that node itself. -/
def aliased? (s : Reader) (name : String) : Option Node :=
  (s.anchors.lookup name).map fun a => (s.nodes.lookup a).getD .bad

def meaning? (s : Reader) (handle : String) : Option String :=
  match s.meanings.lookup handle with
  | some m => some m
  | none =>
    if handle = "!!" then some "tag:yaml.org,2002:"
    else if isNamed handle then none
    else some handle

def tag? (s : Reader) (p : Properties) : Option (Properties × Reader) :=
  match s.next with
  | some (.tag h suffix) =>
    (s.meaning? h).map fun m => ({ p with tag := some (m, suffix) }, s.drop)
  | _ => some (p, s)

def anchor (s : Reader) (p : Properties) : Properties × Reader :=
  match s.next with
  | some (.anchor name) =>
    let (a, s) := s.drop.nameAnchor name
    ({ p with anchor := some a }, s)
  | _ => (p, s)

def properties? (s : Reader) : Option (Properties × Reader) := do
  match s.next with
  | some (.anchor _) =>
    let (p, s) := s.anchor {}
    s.tag? p
  | _ =>
    let (p, s) ← s.tag? {}
    some (if p.tag.isSome then s.anchor p else (p, s))

end Reader

def scalarNode (p : Properties) (plain : Bool) (text : String) : Node :=
  if !plain then .scalar (.text text)
  else
    match p.tag with
    | some (h, suffix) =>
      match Scalar.ofTagged? h suffix text with
      | some s => .scalar s
      | none => .bad
    | none => .scalar (.ofWord text)

mutual

/-- A node. Only in a block may it be one of a block, and as a value there may the items of a
    sequence stand without an indentation of their own. -/
def node? (block bare : Bool) : Nat → Reader → Option (Node × Reader)
  | 0, _ => none
  | fuel + 1, s =>
    match s.next with
    | some (.alias name) => (s.aliased? name).map fun n => (n, s.drop)
    | _ => do
      let (p, s) ← s.properties?
      let (n, s) ←
        match s.next with
        | some (.scalar plain text) => some (scalarNode p plain text, s.drop)
        | some .flowSequence => do
          let (ns, s) ← flowItems? true fuel s.drop
          some (Node.ofItems ns, s)
        | some .flowMapping => do
          let (ns, s) ← flowFields? true fuel s.drop
          some (← Node.ofFields? ns, s)
        | t =>
          if t = some .item ∧ bare then do
            let (ns, s) ← bareItems? fuel s
            some (Node.ofItems ns, s)
          else if t = some .blockSequence ∧ block then do
            let (ns, s) ← items? fuel s.drop
            some (Node.ofItems ns, s)
          else if t = some .blockMapping ∧ block then do
            let (ns, s) ← fields? fuel s.drop
            some (← Node.ofFields? ns, s)
          else if p.anchor.isSome ∨ p.tag.isSome then some (scalarNode p true "", s)
          else none
      some (n, s.setAnchor p.anchor n)

def items? : Nat → Reader → Option (List Node × Reader)
  | 0, _ => none
  | fuel + 1, s =>
    match s.next with
    | some .blockEnd => some ([], s.drop)
    | some .item => do
      let (n, s) ←
        if s.drop.atAny [.item, .blockEnd] then some (Node.empty, s.drop)
        else node? true false fuel s.drop
      let (ns, s) ← items? fuel s
      some (n :: ns, s)
    | _ => none

def bareItems? : Nat → Reader → Option (List Node × Reader)
  | 0, _ => none
  | fuel + 1, s =>
    match s.next with
    | some .item => do
      let (n, s) ←
        if s.drop.atAny [.item, .key, .value, .blockEnd] then some (Node.empty, s.drop)
        else node? true false fuel s.drop
      let (ns, s) ← bareItems? fuel s
      some (n :: ns, s)
    | _ => some ([], s)

def fields? : Nat → Reader → Option (List Node × Reader)
  | 0, _ => none
  | fuel + 1, s =>
    match s.next with
    | some .blockEnd => some ([], s.drop)
    | t =>
      if t = some .key ∨ t = some .value then do
        let (k, s) ← part? .key fuel s
        let (n, s) ← part? .value fuel s
        let (ns, s) ← fields? fuel s
        some (k :: n :: ns, s)
      else none

def part? (indicator : Token) : Nat → Reader → Option (Node × Reader)
  | 0, _ => none
  | fuel + 1, s =>
    if s.next ≠ some indicator then some (Node.empty, s)
    else if s.drop.atAny [.key, .value, .blockEnd] then some (Node.empty, s.drop)
    else node? true true fuel s.drop

def flowValue? (ends : List Token) : Nat → Reader → Option (Node × Reader)
  | 0, _ => none
  | fuel + 1, s =>
    if s.next ≠ some .value then some (Node.empty, s)
    else if s.drop.atAny ends then some (Node.empty, s.drop)
    else node? false false fuel s.drop

/-- The items up to a closing bracket, between commas. A key among them starts a mapping with one
    field; if the key is left out, so is the token where it is missed. -/
def flowItems? (first : Bool) : Nat → Reader → Option (List Node × Reader)
  | 0, _ => none
  | fuel + 1, s =>
    match s.next with
    | some .flowSequenceEnd => some ([], s.drop)
    | t =>
      if !first ∧ t ≠ some .comma then none
      else
        let s := if first then s else s.drop
        match s.next with
        | some .flowSequenceEnd => some ([], s.drop)
        | some .key => do
          let (k, s) ←
            if s.drop.atAny [.value, .comma, .flowSequenceEnd] then some (Node.empty, s.drop.drop)
            else node? false false fuel s.drop
          let (n, s) ← flowValue? [.comma, .flowSequenceEnd] fuel s
          let m ← Node.ofFields? [k, n]
          let (ns, s) ← flowItems? false fuel s
          some (m :: ns, s)
        | _ => do
          let (n, s) ← node? false false fuel s
          let (ns, s) ← flowItems? false fuel s
          some (n :: ns, s)

def flowFields? (first : Bool) : Nat → Reader → Option (List Node × Reader)
  | 0, _ => none
  | fuel + 1, s =>
    match s.next with
    | some .flowMappingEnd => some ([], s.drop)
    | t =>
      if !first ∧ t ≠ some .comma then none
      else
        let s := if first then s else s.drop
        match s.next with
        | some .flowMappingEnd => some ([], s.drop)
        | some .key => do
          let (k, s) ←
            if s.drop.atAny [.value, .comma, .flowMappingEnd] then some (Node.empty, s.drop)
            else node? false false fuel s.drop
          let (n, s) ← flowValue? [.comma, .flowMappingEnd] fuel s
          let (ns, s) ← flowFields? false fuel s
          some (k :: n :: ns, s)
        | some .value => do
          let (n, s) ← flowValue? [.comma, .flowMappingEnd] fuel s
          let (ns, s) ← flowFields? false fuel s
          some (Node.empty :: n :: ns, s)
        | _ => do
          let (k, s) ← node? false false fuel s
          let (ns, s) ← flowFields? false fuel s
          some (k :: Node.empty :: ns, s)

end

end CachedCalls.Yaml
