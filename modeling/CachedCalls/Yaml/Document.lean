import CachedCalls.Yaml.Node

set_option autoImplicit false

namespace CachedCalls.Yaml

/-- Past the directives, of which one at most may tell a version. Only what the last one says of
    tags counts. -/
def directives? (version : Bool) (meanings : List (String × String)) :
    List Token → Option (List (String × String) × List Token)
  | .version :: ts => if version then none else directives? true [] ts
  | .tagPrefix h m :: ts => directives? version [(h, m)] ts
  | ts => some (meanings, ts)

def content? (s : Reader) : Option (Node × Reader) := node? true false (3 * s.tokens.length + 3) s

def isContent (t : Token) : Bool := t != .documentStart && t != .documentEnd

/-- A document: its directives, its marker and its node, which may be left out; or a node alone. -/
def document? (ts : List Token) : Option (Node × Reader) := do
  let (meanings, rest) ← directives? false [] ts
  match rest with
  | .documentStart :: r =>
    let s : Reader := { tokens := r, meanings }
    match r with
    | [] => some (.empty, s)
    | .version :: _ => some (.empty, s)
    | .tagPrefix _ _ :: _ => some (.empty, s)
    | t :: _ => if isContent t then content? s else some (.empty, s)
  | _ => if rest.length = ts.length then content? { tokens := ts } else none

def ofText? (text : String) : Option Value := do
  let ts ← tokens? text
  match ts.dropWhile (· == .documentEnd) with
  | [] => some (.obj [])
  | ts =>
    let (n, s) ← document? ts
    if s.tokens.all (· == .documentEnd) then n.toValue? else none

end CachedCalls.Yaml
