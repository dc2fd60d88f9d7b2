import CachedCalls.Source.Declared
import CachedCalls.Text.Pieces

set_option autoImplicit false

namespace CachedCalls

namespace Pattern

def afterPrefix? (w t : List Char) : Option (List Char) :=
  if w.isPrefixOf t then some (t.drop w.length) else none

/-- What comes after the first place where `w` stands in the text. -/
def afterFirst? (w : List Char) : List Char → Option (List Char)
  | [] => afterPrefix? w []
  | c :: cs => (afterPrefix? w (c :: cs)).or (afterFirst? w cs)

/-- The pieces after a star: each is taken where it first stands, the last one at the end. -/
def fitsRest : List (List Char) → List Char → Bool
  | [], t => t.isEmpty
  | [w], t => w.isSuffixOf t
  | w :: ws, t =>
    match afterFirst? w t with
    | some t => fitsRest ws t
    | none => false

def fits (p t : String) : Bool :=
  match Text.pieces '*' p.toList with
  | [] => false
  | [w] => w == t.toList
  | w :: ws =>
    match afterPrefix? w t.toList with
    | some t => fitsRest ws t
    | none => false

/-- Longer patterns, measured by their bytes, come before shorter ones. -/
def before (p q : String) : Bool :=
  decide (q.utf8ByteSize < p.utf8ByteSize) ||
    (decide (p.utf8ByteSize = q.utf8ByteSize) && decide (p < q))

end Pattern

abbrev Patterns := List (String × List Operation)

namespace Patterns

def add (ps : Patterns) (p : String) (ops : List Draft) : Except OperationFault Patterns :=
  (Draft.buildAll p {} ops).map fun os => (p, os) :: List.filter (fun e => decide (e.1 ≠ p)) ps

def prefer (best : Option (String × List Operation)) (e : String × List Operation) :
    Option (String × List Operation) :=
  match best with
  | none => some e
  | some b => if Pattern.before e.1 b.1 then some e else some b

def ask (ps : Patterns) (name : String) : List Operation :=
  match List.lookup name ps with
  | some os => os
  | none =>
    (((List.filter (fun e => Pattern.fits e.1 name) ps).foldl prefer none).map (·.2)).getD []

end Patterns

end CachedCalls
