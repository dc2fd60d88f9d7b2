import CachedCalls.Ron.Scalar

set_option autoImplicit false

namespace CachedCalls.Ron

def scalar? (cs : List Char) : Option (Value × List Char) :=
  match cs with
  | [] => none
  | c :: _ =>
    if Number.isDigit c ∨ c = '+' ∨ c = '-' then number? cs
    else if c = '.' then float? cs
    else (text? cs).map fun (s, r) => (.str s, r)

def word? (cs : List Char) : Option (Value × List Char) :=
  let float (negative : Bool) (bits : UInt64) : Value :=
    let x := Float.ofBits bits
    .float (if negative then -x else x)
  [("true", Value.bool true), ("false", .bool false), ("None", .null),
    ("inf", float false 0x7ff0000000000000), ("-inf", float true 0x7ff0000000000000),
    ("NaN", float false 0x7ff8000000000000)].findSome?
      fun (w, v) => (after? w cs).map fun r => (v, r)

def comma? (cs : List Char) : Option (Bool × List Char) := do
  match ← skip? cs with
  | ',' :: r => some (true, ← skip? r)
  | r => some (false, r)

/-- Whether what follows an opening bracket is a field, that is a name and a colon. -/
def startsField? (cs : List Char) : Option Bool :=
  match name? cs with
  | none => some false
  | some (_, r) => do
    match ← skip? r with
    | c :: _ => some (c == ':')
    | [] => none

def inner? : Nat → Option Nat
  | 0 => none
  | n + 1 => some n

mutual

/-- A value at the front; `depth` is how many levels may still stand inside one another. A list and
    what has fields take one level, and one more for what stands in them. -/
def value? : Nat → Nat → List Char → Option (Value × List Char)
  | 0, _, _ => none
  | fuel + 1, depth, cs =>
    match word? cs with
    | some v => some v
    | none =>
      match after? "Some" cs with
      | some r => do
        match ← skip? r with
        | '(' :: r =>
          let (v, r) ← value? fuel (← inner? depth) (← skip? r)
          match ← comma? r with
          | (_, ')' :: r) => some (v, r)
          | _ => none
        | _ => none
      | none =>
        match name? cs with
        | some (_, r) => do
          match ← skip? r with
          | '(' :: r => structure? fuel depth r
          | r => some (.null, r)
        | none =>
          match cs with
          | '(' :: ')' :: r => some (.null, r)
          | '(' :: r => structure? fuel depth r
          | '[' :: r => do
            let (vs, r) ← items? ']' fuel (← inner? depth) (← skip? r)
            some (.arr vs, r)
          | '\x7b' :: r => do
            let (fs, r) ← fields? '\x7d' fuel (← inner? depth) (← skip? r)
            some (.record fs, r)
          | cs => scalar? cs

def structure? : Nat → Nat → List Char → Option (Value × List Char)
  | 0, _, _ => none
  | fuel + 1, depth, cs => do
    let cs ← skip? cs
    let depth ← inner? depth
    if ← startsField? cs then
      let (fs, r) ← fields? ')' fuel depth cs
      some (.record fs, r)
    else
      let (vs, r) ← items? ')' fuel depth cs
      some (.arr vs, r)

def items? (closing : Char) : Nat → Nat → List Char → Option (List Value × List Char)
  | 0, _, _ => none
  | _ + 1, _, [] => none
  | fuel + 1, depth, c :: r =>
    if c = closing then some ([], r)
    else do
      let (v, r) ← value? fuel (← inner? depth) (c :: r)
      match ← comma? r with
      | (true, r) =>
        let (vs, r) ← items? closing fuel depth r
        some (v :: vs, r)
      | (false, d :: r) => if d = closing then some ([v], r) else none
      | (false, []) => none

def fields? (closing : Char) :
    Nat → Nat → List Char → Option (List (String × Value) × List Char)
  | 0, _, _ => none
  | _ + 1, _, [] => none
  | fuel + 1, depth, c :: r =>
    if c = closing then some ([], r)
    else do
      let within ← inner? depth
      let (k, r) ← if closing = ')' then name? (c :: r) else text? (c :: r)
      match ← skip? r with
      | ':' :: r =>
        let (v, r) ← value? fuel within (← skip? r)
        match ← comma? r with
        | (true, r) =>
          let (fs, r) ← fields? closing fuel depth r
          some ((k, v) :: fs, r)
        | (false, d :: r) => if d = closing then some ([(k, v)], r) else none
        | (false, []) => none
      | _ => none

end

def extensions : List String := ["unwrap_newtypes", "implicit_some", "unwrap_variant_newtypes"]

def afterAll? : List String → List Char → Option (List Char)
  | [], cs => some cs
  | w :: ws, cs =>
    if w.toList.isPrefixOf cs then (skip? (cs.drop w.length)).bind (afterAll? ws) else none

def extensionList? : Nat → List Char → Option (List Char)
  | 0, _ => none
  | fuel + 1, cs => do
    let (n, r) ← name? cs
    if n ∈ extensions then
      match ← comma? r with
      | (true, r) => if r.head?.any continuesName then extensionList? fuel r else some r
      | (false, r) => if r.head?.any continuesName then none else some r
    else none

def attributes? : Nat → List Char → Option (List Char)
  | 0, _ => none
  | fuel + 1, cs =>
    match cs with
    | '#' :: _ => do
      let r ← afterAll? ["#", "!", "[", "enable", "("] cs
      let r ← extensionList? (r.length + 1) r
      attributes? fuel (← afterAll? [")", "]"] r)
    | cs => some cs

def depthLimit : Nat := 128

def ofText? (text : String) : Option Value := do
  let cs ← skip? text.toList
  let cs ← attributes? (cs.length + 1) cs
  let (v, r) ← value? (2 * cs.length + 3) depthLimit cs
  if (← skip? r).isEmpty then some v else none

end CachedCalls.Ron
