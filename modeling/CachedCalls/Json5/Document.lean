import CachedCalls.Json5.Scalar

set_option autoImplicit false

namespace CachedCalls.Json5

def after? (w : String) (cs : List Char) : Option (List Char) :=
  if w.toList.isPrefixOf cs then some (cs.drop w.length) else none

def scalar? (cs : List Char) : Option (Value × List Char) :=
  match after? "null" cs, after? "true" cs, after? "false" cs with
  | some r, _, _ => some (.null, r)
  | _, some r, _ => some (.bool true, r)
  | _, _, some r => some (.bool false, r)
  | _, _, _ =>
    match quoted? cs with
    | some (s, r) => some (.str s, r)
    | none => number? cs

mutual

def value? : Nat → List Char → Option (Value × List Char)
  | 0, _ => none
  | fuel + 1, cs =>
    match cs with
    | '[' :: r => (items? fuel (skip r)).map fun (vs, r) => (.arr vs, r)
    | '\x7b' :: r => (fields? fuel (skip r)).map fun (fs, r) => (.record fs, r)
    | cs => scalar? cs

def items? : Nat → List Char → Option (List Value × List Char)
  | 0, _ => none
  | fuel + 1, cs =>
    match cs with
    | ']' :: r => some ([], r)
    | cs => do
      let (v, r) ← value? fuel cs
      match skip r with
      | ',' :: r =>
        let (vs, r) ← items? fuel (skip r)
        some (v :: vs, r)
      | ']' :: r => some ([v], r)
      | _ => none

def fields? : Nat → List Char → Option (List (String × Value) × List Char)
  | 0, _ => none
  | fuel + 1, cs =>
    match cs with
    | '\x7d' :: r => some ([], r)
    | cs => do
      let (k, r) ← key? cs
      match skip r with
      | ':' :: r =>
        let (v, r) ← value? fuel (skip r)
        match skip r with
        | ',' :: r =>
          let (fs, r) ← fields? fuel (skip r)
          some ((k, v) :: fs, r)
        | '\x7d' :: r => some ([(k, v)], r)
        | _ => none
      | _ => none

end

def ofText? (text : String) : Option Value :=
  let cs := skip text.toList
  match value? (2 * cs.length + 2) cs with
  | some (v, r) => if (skip r).isEmpty then some v else none
  | none => none

end CachedCalls.Json5
