import CachedCalls.Text.Blank
import CachedCalls.Value.Read

set_option autoImplicit false

namespace CachedCalls.Ini

def isSpace (c : Char) : Bool := Text.isSpace c

def escaped (c : Char) : Char :=
  if c = '0' then '\x00'
  else if c = 'a' then '\x07'
  else if c = 'b' then '\x08'
  else if c = 't' then '\t'
  else if c = 'r' then '\r'
  else if c = 'n' then '\n'
  else c

def coded? (ds : List Char) : Option Char :=
  Text.charOfHex? (match ds with | '+' :: r => r | r => r)

/-- The text before the first character that ends it, and the rest from that character on. A
    backslash joins the next line to this one. `atEnd` says that the end of the document ends the
    text too. -/
def upTo? (ends : Char → Bool) (atEnd : Bool) (acc : List Char) :
    List Char → Option (String × List Char)
  | [] => if atEnd then some (String.ofList acc.reverse, []) else none
  | '\\' :: 'x' :: a :: b :: c :: d :: r =>
    match coded? [a, b, c, d] with
    | some e => upTo? ends atEnd (e :: acc) r
    | none => none
  | '\\' :: 'x' :: _ => none
  | ['\\'] => none
  | '\\' :: '\n' :: r => upTo? ends atEnd acc r
  | '\\' :: c :: r => upTo? ends atEnd (escaped c :: acc) r
  | c :: r =>
    if ends c then some (String.ofList acc.reverse, c :: r) else upTo? ends atEnd (c :: acc) r

def isMark (c : Char) : Bool := c == '=' || c == ':'

def isLineEnd (c : Char) : Bool := c == '\n' || c == '\r'

def isQuote (c : Char) : Bool := c == '"' || c == '\''

def value? (cs : List Char) : Option (String × List Char) :=
  match cs.dropWhile (fun c => isSpace c && !isLineEnd c) with
  | [] => some ("", [])
  | q :: r =>
    if isQuote q then do
      let (v, r) ← upTo? (· == q) false [] r
      let (w, r) ← upTo? isLineEnd true [] (r.drop 1)
      some (v ++ w, r)
    else upTo? isLineEnd true [] (q :: r)

abbrev Fields := List (String × Value)

structure State where
  top : Fields := []
  sections : List (String × Fields) := []
  current : Option (String × Fields) := none

namespace State

def close (s : State) : State :=
  match s.current with
  | some sec => { s with sections := s.sections ++ [sec], current := none }
  | none => s

def openSection (s : State) (n : String) : State := { s.close with current := some (n, []) }

def assign (s : State) (k v : String) : State :=
  match s.current with
  | some (n, fs) => { s with current := some (n, fs ++ [(k, .str v)]) }
  | none => { s with top := s.top ++ [(k, .str v)] }

def toValue (s : State) : Value :=
  .record (s.top ++ s.close.sections.map fun (n, fs) => (n, Value.record fs))

end State

def skipSpace (fresh : Bool) : List Char → Bool × List Char
  | [] => (fresh, [])
  | c :: r => if isSpace c then skipSpace (c == '\n') r else (fresh, c :: r)

/-- Reads on from a place that starts a line if `fresh` says so. A comment may start only there. -/
def lines? (s : State) (fresh : Bool) : Nat → List Char → Option State
  | 0, _ => none
  | fuel + 1, cs =>
    match skipSpace fresh cs with
    | (_, []) => some s
    | (fresh, c :: r) =>
      if c = ';' ∨ c = '#' then
        if fresh then lines? s false fuel (r.dropWhile (· != '\n')) else none
      else if c = '[' then
        match upTo? (· == ']') false [] r with
        | some (n, r) => lines? (s.openSection (Text.trim n)) false fuel (r.drop 1)
        | none => none
      else
        match upTo? isMark false [] (c :: r) with
        | none => none
        | some (k, r) =>
          let k := Text.trim k
          if k = "" then none
          else
            match value? (r.drop 1) with
            | some (v, r) => lines? (s.assign k (Text.trim v)) false fuel r
            | none => none

def ofText? (text : String) : Option Value :=
  (lines? {} true (text.length + 1) text.toList).map State.toValue

end CachedCalls.Ini
