import CachedCalls.Number.Literal
import CachedCalls.Value.Read

set_option autoImplicit false

namespace CachedCalls.Toml

def isGap (c : Char) : Bool := c == ' ' || c == '\t'

def skipGap (cs : List Char) : List Char := cs.dropWhile isGap

def isPlain (c : Char) : Bool := c == '\t' || (32 ≤ c.toNat && c.toNat != 127)

def lineBreak? : List Char → Option (List Char)
  | '\n' :: r => some r
  | '\r' :: '\n' :: r => some r
  | _ => none

def escape? : List Char → Option (Char × List Char)
  | [] => none
  | c :: r =>
    if c = 'u' then Text.takeHexChar? 4 r
    else if c = 'U' then Text.takeHexChar? 8 r
    else if c = '/' then none
    else (Value.simpleEscape? c).map fun d => (d, r)

def literal (acc : List Char) : List Char → Option (String × List Char)
  | [] => none
  | c :: r =>
    if c = '\'' then some (String.ofList acc.reverse, r)
    else if isPlain c then literal (c :: acc) r
    else none

def basic (acc : List Char) : Nat → List Char → Option (String × List Char)
  | 0, _ => none
  | _ + 1, [] => none
  | fuel + 1, c :: r =>
    if c = '"' then some (String.ofList acc.reverse, r)
    else if c = '\\' then
      match escape? r with
      | some (d, r) => basic (d :: acc) fuel r
      | none => none
    else if isPlain c then basic (c :: acc) fuel r
    else none

def skipLines : Nat → List Char → List Char
  | 0, cs => cs
  | fuel + 1, cs =>
    let cs := skipGap cs
    match lineBreak? cs with
    | some r => skipLines fuel r
    | none => cs

def lineJoin? (cs : List Char) : Option (List Char) :=
  (lineBreak? (skipGap cs)).map fun r => skipLines r.length r

/-- The rest of a text on several lines between three quotes `q`. Up to two quotes may stand before
    the closing ones; escapes count only where `escapes` says so. -/
def multiLine (q : Char) (escapes : Bool) (acc : List Char) :
    Nat → List Char → Option (String × List Char)
  | 0, _ => none
  | _ + 1, [] => none
  | fuel + 1, c :: r =>
    if c = q then
      let n := ((c :: r).takeWhile (· == q)).length
      if n < 3 then multiLine q escapes (c :: acc) fuel r
      else
        let inside := min (n - 3) 2
        some (String.ofList (acc.reverse ++ List.replicate inside q), (c :: r).drop (inside + 3))
    else if c = '\\' ∧ escapes then
      match lineJoin? r with
      | some r => multiLine q escapes acc fuel r
      | none =>
        match escape? r with
        | some (d, r) => multiLine q escapes (d :: acc) fuel r
        | none => none
    else
      match lineBreak? (c :: r) with
      | some r => multiLine q escapes ('\n' :: acc) fuel r
      | none => if isPlain c then multiLine q escapes (c :: acc) fuel r else none

def openLines (cs : List Char) : List Char := (lineBreak? cs).getD cs

def lineText? : List Char → Option (String × List Char)
  | '"' :: r => basic [] (r.length + 1) r
  | '\'' :: r => literal [] r
  | _ => none

def text? : List Char → Option (String × List Char)
  | '"' :: '"' :: '"' :: r => multiLine '"' true [] (r.length + 1) (openLines r)
  | '\'' :: '\'' :: '\'' :: r => multiLine '\'' false [] (r.length + 1) (openLines r)
  | cs => lineText? cs

def ungrouped? (isDigit : Char → Bool) : List Char → Option (List Char)
  | [] => none
  | [c] => if isDigit c then some [c] else none
  | c :: '_' :: r => if isDigit c then (ungrouped? isDigit r).map (c :: ·) else none
  | c :: r => if isDigit c then (ungrouped? isDigit r).map (c :: ·) else none

def startsPlain (ds : List Char) : Bool := ds.length == 1 || ds.head? != some '0'

def whole? (cs : List Char) : Option (List Char) :=
  (ungrouped? Number.isDigit cs).filter startsPlain

def natural? (base : Nat) (cs : List Char) : Option Nat :=
  (ungrouped? (fun c => (Number.digitValueIn? base c).isSome) cs).bind (Number.naturalIn? base)

def unsigned : List Char → List Char × List Char
  | '+' :: r => ([], r)
  | '-' :: r => (['-'], r)
  | r => ([], r)

def whole (cs : List Char) : Option Int :=
  let (sign, r) := unsigned cs
  (whole? r).bind fun ds => Number.integer? (sign ++ ds)

def integer? (cs : List Char) : Option Int :=
  let n : Option Int :=
    match cs with
    | '0' :: 'x' :: r => (natural? 16 r).map Int.ofNat
    | '0' :: 'o' :: r => (natural? 8 r).map Int.ofNat
    | '0' :: 'b' :: r => (natural? 2 r).map Int.ofNat
    | cs => whole cs
  n.filter Number.isSigned

def isExponentMark (c : Char) : Bool := c == 'e' || c == 'E'

def exponent? : List Char → Option (List Char)
  | [] => some []
  | _ :: r =>
    let (sign, r) := unsigned r
    (ungrouped? Number.isDigit r).map fun ds => 'e' :: sign ++ ds

/-- A number with a fraction, an exponent or both. One that is too large is refused, one that is too
    small is infinite. -/
def float? (cs : List Char) : Option Float :=
  let (sign, r) := unsigned cs
  if r = ['i', 'n', 'f'] ∨ r = ['n', 'a', 'n'] then Number.float? (sign ++ r)
  else do
    let front := r.takeWhile fun c => !isExponentMark c
    let ex ← exponent? (r.dropWhile fun c => !isExponentMark c)
    let ds ← whole? (front.takeWhile (· != '.'))
    let part ←
      match front.dropWhile (· != '.') with
      | [] => if ex.isEmpty then none else some []
      | _ :: p => (ungrouped? Number.isDigit p).map ('.' :: ·)
    let x ← Number.float? (sign ++ ds ++ part ++ ex)
    if x.isFinite ∨ Number.isNegative x then some x else none

def pair? (bound : Nat) : List Char → Option (Nat × List Char)
  | a :: b :: r => do
    let n ← Number.natural? [a, b]
    if n ≤ bound then some (n, r) else none
  | _ => none

def daysIn (year month : Nat) : Nat :=
  if month = 2 then
    if year % 4 = 0 ∧ (year % 100 ≠ 0 ∨ year % 400 = 0) then 29 else 28
  else if month ∈ [4, 6, 9, 11] then 30
  else 31

def date? (cs : List Char) : Option (List Char) := do
  let year ← Number.natural? (cs.take 4)
  match cs.drop 4 with
  | '-' :: r =>
    match ← pair? 12 r with
    | (month, '-' :: r) =>
      let (day, r) ← pair? (daysIn year month) r
      if month = 0 ∨ day = 0 then none else some r
    | _ => none
  | _ => none

/-- A time of day, whose fraction counts to nine places, and the rest after it. -/
def time? (cs : List Char) : Option (List Char × List Char) :=
  match pair? 23 cs with
  | some (_, ':' :: r) =>
    match pair? 59 r with
    | some (_, ':' :: r) =>
      match pair? 60 r with
      | some (_, '.' :: r) =>
        let ds := r.takeWhile Number.isDigit
        let kept := ((ds.take 9).reverse.dropWhile (· == '0')).reverse
        if ds.isEmpty then none
        else
          some (cs.take 8 ++ (if kept.isEmpty then [] else '.' :: kept), r.dropWhile Number.isDigit)
      | some (_, r) => some (cs.take 8, r)
      | none => none
    | _ => none
  | _ => none

def offset? : List Char → Option (List Char)
  | [] => some []
  | ['Z'] => some ['Z']
  | ['z'] => some ['Z']
  | sign :: r =>
    match pair? 23 r with
    | some (_, ':' :: m) =>
      if sign = '+' ∨ sign = '-' then
        match pair? 59 m with
        | some (_, []) => some ((if r = ['0', '0', ':', '0', '0'] then '+' else sign) :: r)
        | _ => none
      else none
    | _ => none

def moment? (cs : List Char) : Option String :=
  match date? cs with
  | some [] => some (String.ofList cs)
  | some (c :: r) =>
    if c = 'T' ∨ c = 't' ∨ c = ' ' then do
      let (t, r) ← time? r
      let o ← offset? r
      some (String.ofList (cs.take 10 ++ 'T' :: t ++ o))
    else none
  | none =>
    match time? cs with
    | some (t, []) => some (String.ofList t)
    | _ => none

def word? (cs : List Char) : Option Value :=
  if cs = ['t', 'r', 'u', 'e'] then some (.bool true)
  else if cs = ['f', 'a', 'l', 's', 'e'] then some (.bool false)
  else
    match integer? cs with
    | some n => some (.int n)
    | none =>
      match float? cs with
      | some x => some (.float x)
      | none => (moment? cs).map .str

def isWordChar (c : Char) : Bool :=
  c.isAlphanum || c == '_' || c == '+' || c == '-' || c == '.' || c == ':'

def takeWord (cs : List Char) : List Char × List Char :=
  let w := cs.takeWhile isWordChar
  match cs.dropWhile isWordChar with
  | ' ' :: d :: r =>
    if (date? w) = some [] ∧ Number.isDigit d then
      (w ++ ' ' :: (d :: r).takeWhile isWordChar, (d :: r).dropWhile isWordChar)
    else (w, ' ' :: d :: r)
  | r => (w, r)

end CachedCalls.Toml
