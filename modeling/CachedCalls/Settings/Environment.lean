import CachedCalls.Number.Literal
import CachedCalls.Text.Casing
import CachedCalls.Text.Pieces
import CachedCalls.Value.Basic

set_option autoImplicit false

namespace CachedCalls.Environment

def namePrefix : String := "cache_aspect__"

/-- The one path whose text is a list. -/
def listPath : String := "cache_manager.cache_names"

def dotted : List Char → List Char
  | '_' :: '_' :: cs => '.' :: dotted cs
  | c :: cs => c :: dotted cs
  | [] => []

def path? (name : String) : Option String :=
  let cs := (Text.lower name).toList
  if namePrefix.toList.isPrefixOf cs then
    some (String.ofList (dotted (cs.drop namePrefix.length)))
  else none

def listOf (text : String) : Value :=
  .arr ((Text.pieces ',' text.toList).map fun w => .str (String.ofList w))

def valueOf (path text : String) : Value :=
  if Text.lower text = "true" then .bool true
  else if Text.lower text = "false" then .bool false
  else
    match Number.signed? text.toList with
    | some n => .int n
    | none =>
      match Number.float? text.toList with
      | some x => .float x
      | none => if path = listPath then listOf text else .str text

def entries (vars : List (String × String)) : List (String × Value) :=
  vars.filterMap fun (n, text) => (path? n).map fun p => (p, valueOf p text)

end CachedCalls.Environment
