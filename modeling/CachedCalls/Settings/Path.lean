import CachedCalls.Number.Literal
import CachedCalls.Text.Casing
import CachedCalls.Value.Basic

set_option autoImplicit false

namespace CachedCalls

namespace Path

inductive Step where
  | child (name : String)
  | item (index : Int)
  deriving DecidableEq

def isNameChar (c : Char) : Bool := c.isAlphanum || c == ' ' || c == '_' || c == '-'

def isGap (c : Char) : Bool := c == ' ' || c == '\t'

def name? (cs : List Char) : Option (String × List Char) :=
  let n := cs.takeWhile isNameChar
  if n.isEmpty then none else some (String.ofList n, cs.dropWhile isNameChar)

def index? (cs : List Char) : Option (Int × List Char) :=
  let cs := cs.dropWhile isGap
  let (sign, cs) : List Char × List Char :=
    match cs with
    | '-' :: r => (['-'], r)
    | r => ([], r)
  let ds := cs.takeWhile Number.isDigit
  match Number.signed? (sign ++ ds), (cs.dropWhile Number.isDigit).dropWhile isGap with
  | some i, ']' :: r => some (i, r)
  | _, _ => none

def steps? : Nat → List Char → Option (List Step)
  | _, [] => some []
  | 0, _ => none
  | fuel + 1, c :: cs =>
    if c = '.' then
      match name? cs with
      | some (n, r) => (steps? fuel r).map (.child n :: ·)
      | none => none
    else if c = '[' then
      match index? cs with
      | some (i, r) => (steps? fuel r).map (.item i :: ·)
      | none => none
    else none

def ofText (s : String) : List Step :=
  let path := do
    let (n, r) ← name? s.toList
    let ss ← steps? r.length r
    some (Step.child n :: ss)
  path.getD [.child s]

def fieldsOf : Value → List (String × Value)
  | .obj fs => fs
  | _ => []

def itemsOf : Value → List Value
  | .arr vs => vs
  | _ => []

def get? (k : String) (t : Value) : Option Value := (fieldsOf t).lookup (Text.lower k)

def put (k : String) (v : Value) (t : Value) : Value :=
  .obj (Value.insertField (Text.lower k) v (fieldsOf t))

mutual

/-- Sets a field. An object is merged into what is there, field by field. -/
def assign (k : String) : Value → Value → Value
  | .obj fs, t => put k (assignAll fs ((get? k t).getD (.obj []))) t
  | v, t => put k v t

def assignAll : List (String × Value) → Value → Value
  | [], t => t
  | (k, v) :: fs, t => assignAll fs (assign k v t)

end

def indexBound : Nat := 0x100000000

/-- The place of an index, a negative one being counted from the end, where no place lies before
    the first. -/
def place? (i : Int) (length : Nat) : Option Nat :=
  if 0 ≤ i then some i.toNat |>.filter (· < indexBound)
  else if i.natAbs ≤ length then some (length - i.natAbs)
  else none

def padded (n : Nat) (vs : List Value) : List Value :=
  vs ++ List.replicate (n + 1 - vs.length) .null

/-- Sets the value at the end of a path, unless an index on the way has no place. -/
def set? (v : Value) : List Step → Value → Option Value
  | [], _ => some v
  | [.child k], t => some (assign k v t)
  | .child k :: ss, t => (set? v ss ((get? k t).getD .null)).map fun w => put k w t
  | .item i :: ss, t => do
    let n ← place? i (itemsOf t).length
    let vs := padded n (itemsOf t)
    (set? v ss ((vs[n]?).getD .null)).map fun w => .arr (vs.set n w)

end Path

end CachedCalls
