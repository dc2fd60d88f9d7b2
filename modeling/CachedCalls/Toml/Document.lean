import CachedCalls.Toml.Scalar
import CachedCalls.Toml.Table

set_option autoImplicit false

namespace CachedCalls.Toml

def isKeyChar (c : Char) : Bool := c.isAlphanum || c == '_' || c == '-'

def keyPart? (cs : List Char) : Option (String × List Char) :=
  match lineText? cs with
  | some r => some r
  | none =>
    let w := cs.takeWhile isKeyChar
    if w.isEmpty then none else some (String.ofList w, cs.dropWhile isKeyChar)

def keyParts? : Nat → List Char → Option (List String × List Char)
  | 0, _ => none
  | n + 1, cs => do
    let (k, r) ← keyPart? (skipGap cs)
    match skipGap r with
    | '.' :: r =>
      let (ks, r) ← keyParts? n r
      some (k :: ks, r)
    | r => some ([k], r)

/-- How many levels lists and tables may be written inside one another, and how many parts a key
    may have. -/
def depthLimit : Nat := 79

def key? (cs : List Char) : Option (List String × List Char) := keyParts? depthLimit cs

def skipComment : List Char → List Char
  | '#' :: r => r.dropWhile isPlain
  | r => r

def skipAll : Nat → List Char → List Char
  | 0, cs => cs
  | fuel + 1, cs =>
    let cs := skipComment (skipGap cs)
    match lineBreak? cs with
    | some r => skipAll fuel r
    | none => cs

abbrev Pair := List String × Value

def ofPairs? (ps : List Pair) : Option Value := do
  let (_, fs) ← ps.foldlM (fun (o, fs) (k, v) => defineAt k v o fs) (Origin.header, [])
  some (Node.table .header fs).toValue

mutual

/-- A value at the front; `level` is how many lists and tables it stands in. -/
def value? : Nat → Nat → List Char → Option (Value × List Char)
  | 0, _, _ => none
  | fuel + 1, level, cs =>
    match cs with
    | [] => none
    | c :: r =>
      if c = '"' ∨ c = '\'' then (text? cs).map fun (s, r) => (.str s, r)
      else if c = '[' then
        if level < depthLimit then (items? fuel (level + 1) r).map fun (vs, r) => (.arr vs, r)
        else none
      else if c = '\x7b' then
        if level < depthLimit then
          match skipGap r with
          | '\x7d' :: r => some (.obj [], r)
          | r => do
            let (ps, r) ← pairs? fuel (level + 1) r
            let v ← ofPairs? ps
            some (v, r)
        else none
      else
        let (w, r) := takeWord cs
        (word? w).map fun v => (v, r)

def items? : Nat → Nat → List Char → Option (List Value × List Char)
  | 0, _, _ => none
  | fuel + 1, level, cs =>
    match skipAll cs.length cs with
    | ']' :: r => some ([], r)
    | cs => do
      let (v, r) ← value? fuel level cs
      match skipAll r.length r with
      | ',' :: r =>
        let (vs, r) ← items? fuel level r
        some (v :: vs, r)
      | ']' :: r => some ([v], r)
      | _ => none

def pairs? : Nat → Nat → List Char → Option (List Pair × List Char)
  | 0, _, _ => none
  | fuel + 1, level, cs => do
    let (k, r) ← key? cs
    match r with
    | '=' :: r =>
      let (v, r) ← value? fuel level (skipGap r)
      match skipGap r with
      | ',' :: r =>
        let (ps, r) ← pairs? fuel level r
        some ((k, v) :: ps, r)
      | '\x7d' :: r => some ([(k, v)], r)
      | _ => none
    | _ => none

end

def lineEnd? (cs : List Char) : Option (List Char) :=
  match skipComment (skipGap cs) with
  | [] => some []
  | r => lineBreak? r

def header? (closing : List Char) (cs : List Char) : Option (List String × List Char) := do
  let (k, r) ← key? cs
  if closing.isPrefixOf r then some (k, r.drop closing.length) else none

structure State where
  fields : Fields := []
  path : List String := []

def State.change (s : State) (path : List String) (c : Change) : Option State := do
  let (_, fs) ← within false c path .header s.fields
  some { s with fields := fs }

def State.openAt (s : State) (path : List String) (c : String → Change) : Option State := do
  let k ← path.getLast?
  let s ← s.change path.dropLast (c k)
  some { s with path }

def lines? (s : State) : Nat → List Char → Option State
  | 0, _ => none
  | fuel + 1, cs =>
    match skipAll cs.length cs with
    | [] => some s
    | '[' :: '[' :: r => do
      let (k, r) ← header? [']', ']'] r
      let s ← s.openAt k openItem
      lines? s fuel (← lineEnd? r)
    | '[' :: r => do
      let (k, r) ← header? [']'] r
      let s ← s.openAt k openTable
      lines? s fuel (← lineEnd? r)
    | cs => do
      let (k, r) ← key? cs
      match r with
      | '=' :: r =>
        let (v, r) ← value? (2 * r.length + 2) 0 (skipGap r)
        let s ← s.change s.path (defineAt k v)
        lines? s fuel (← lineEnd? r)
      | _ => none

def ofText? (text : String) : Option Value :=
  let cs := text.toList
  let cs := if cs.head? = some '\uFEFF' then cs.drop 1 else cs
  (lines? {} (cs.length + 1) cs).map fun s => (Node.table .header s.fields).toValue

end CachedCalls.Toml
