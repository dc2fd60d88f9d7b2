import CachedCalls.Text.CodePoint
import CachedCalls.Value.Basic

set_option autoImplicit false

namespace CachedCalls.Value

def isGap (c : Char) : Bool := c = ' ' || c = '\t' || c = '\n' || c = '\r'

def skipGap (cs : List Char) : List Char := cs.dropWhile isGap

def codeUnit? (cs : List Char) : Option (Nat × List Char) :=
  if (cs.take 4).length < 4 then none
  else (Number.naturalIn? 16 (cs.take 4)).map fun n => (n, cs.drop 4)

def unicodeEscape? (cs : List Char) : Option (Char × List Char) := do
  let (n, r) ← codeUnit? cs
  match Text.charAt? n with
  | some c => some (c, r)
  | none =>
    match r with
    | '\\' :: 'u' :: r =>
      let (m, r) ← codeUnit? r
      (Text.surrogatePair? n m).map fun c => (c, r)
    | _ => none

def simpleEscape? (c : Char) : Option Char :=
  if c = '"' ∨ c = '\\' ∨ c = '/' then some c
  else if c = 'b' then some '\x08'
  else if c = 'f' then some '\x0c'
  else if c = 'n' then some '\n'
  else if c = 'r' then some '\r'
  else if c = 't' then some '\t'
  else none

def readString (acc : List Char) : Nat → List Char → Option (String × List Char)
  | 0, _ => none
  | _ + 1, [] => none
  | fuel + 1, c :: cs =>
    if c = '"' then some (String.ofList acc.reverse, cs)
    else if c = '\\' then
      match cs with
      | [] => none
      | e :: r =>
        if e = 'u' then
          match unicodeEscape? r with
          | some (d, r') => readString (d :: acc) fuel r'
          | none => none
        else
          match simpleEscape? e with
          | some d => readString (d :: acc) fuel r
          | none => none
    else if c.toNat < 32 then none
    else readString (c :: acc) fuel cs

def wholePart? (cs : List Char) : Option (List Char × List Char) :=
  let ds := cs.takeWhile Number.isDigit
  if ds.isEmpty ∨ (1 < ds.length ∧ ds.head? = some '0') then none
  else some (ds, cs.dropWhile Number.isDigit)

def fractionPart? : List Char → Option (List Char × List Char)
  | '.' :: r =>
    let ds := r.takeWhile Number.isDigit
    if ds.isEmpty then none else some (ds, r.dropWhile Number.isDigit)
  | r => some ([], r)

def exponentPart? : List Char → Option (Option Int × List Char)
  | c :: r =>
    if c = 'e' ∨ c = 'E' then
      let (sign, r) : Int × List Char :=
        match r with
        | '-' :: r => (-1, r)
        | '+' :: r => (1, r)
        | r => (1, r)
      let ds := r.takeWhile Number.isDigit
      if ds.isEmpty then none
      else some (some (sign * (Number.ofDigits ds : Int)), r.dropWhile Number.isDigit)
    else some (none, c :: r)
  | [] => some (none, [])

/-- A literal without point and exponent that a word holds is a whole number; every other one,
    also minus zero, is a float. -/
def readNumber (cs : List Char) : Option (Value × List Char) := do
  let (negative, cs) : Bool × List Char :=
    match cs with
    | '-' :: r => (true, r)
    | r => (false, r)
  let (whole, r) ← wholePart? cs
  let (part, r') ← fractionPart? r
  let (e, rest) ← exponentPart? r'
  let m := Number.ofDigits (whole ++ part)
  let n : Int := if negative then -(m : Int) else m
  if part.isEmpty && e.isNone && Number.isWord n && !(negative && m == 0) then some (int n, rest)
  else
    let x := Number.nearest negative m (e.getD 0 - part.length)
    if x.isFinite then some (float x, rest) else none

def readWord (w : String) (v : Value) (cs : List Char) : Option (Value × List Char) :=
  if cs.take w.length = w.toList then some (v, cs.drop w.length) else none

mutual

def readValue : Nat → List Char → Option (Value × List Char)
  | 0, _ => none
  | fuel + 1, cs =>
    match skipGap cs with
    | [] => none
    | c :: r =>
      if c = '"' then (readString [] (r.length + 1) r).map fun (s, rest) => (str s, rest)
      else if c = '[' then
        match skipGap r with
        | ']' :: rest => some (arr [], rest)
        | r' => (readItems fuel r').map fun (vs, rest) => (arr vs, rest)
      else if c = '\x7b' then
        match skipGap r with
        | '\x7d' :: rest => some (obj [], rest)
        | r' => (readFields fuel r').map fun (fs, rest) => (record fs, rest)
      else if c = 'n' then readWord "null" null (c :: r)
      else if c = 't' then readWord "true" (bool true) (c :: r)
      else if c = 'f' then readWord "false" (bool false) (c :: r)
      else readNumber (c :: r)

def readItems : Nat → List Char → Option (List Value × List Char)
  | 0, _ => none
  | fuel + 1, cs =>
    match readValue fuel cs with
    | none => none
    | some (v, r) =>
      match skipGap r with
      | ',' :: r' => (readItems fuel r').map fun (vs, rest) => (v :: vs, rest)
      | ']' :: rest => some ([v], rest)
      | _ => none

def readFields : Nat → List Char → Option (List (String × Value) × List Char)
  | 0, _ => none
  | fuel + 1, cs =>
    match skipGap cs with
    | '"' :: r =>
      match readString [] (r.length + 1) r with
      | none => none
      | some (k, r1) =>
        match skipGap r1 with
        | ':' :: r2 =>
          match readValue fuel r2 with
          | none => none
          | some (v, r3) =>
            match skipGap r3 with
            | ',' :: r4 => (readFields fuel r4).map fun (fs, rest) => ((k, v) :: fs, rest)
            | '\x7d' :: rest => some ([(k, v)], rest)
            | _ => none
        | _ => none
    | _ => none

end

def ofChars? (cs : List Char) : Option Value :=
  match readValue (2 * cs.length + 2) cs with
  | some (v, rest) => if (skipGap rest).isEmpty then some v else none
  | none => none

def ofText? (s : String) : Option Value := ofChars? s.toList

end CachedCalls.Value
