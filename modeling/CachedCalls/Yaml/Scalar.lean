import CachedCalls.Number.Radix
import CachedCalls.Value.Basic

set_option autoImplicit false

namespace CachedCalls.Yaml

inductive Scalar where
  | null
  | bool (b : Bool)
  | int (n : Int)
  | real (text : String)
  | text (s : String)
  deriving DecidableEq

namespace Scalar

def isSpecial (w : String) : Bool :=
  w ∈ [".inf", ".Inf", ".INF", "+.inf", "+.Inf", "+.INF", "-.inf", "-.Inf", "-.INF", ".nan", ".NAN"]

def isReal (w : String) : Bool := isSpecial w || (Number.float? w.toList).isSome

/-- A whole number: hexadecimal or octal, with a sign after what marks it; behind a plus sign, also
    with a sign of its own; or decimal. -/
def integer? (cs : List Char) : Option Int :=
  let marked : Option Int :=
    match cs with
    | '0' :: 'x' :: r => Number.signedIn? 16 r
    | '0' :: 'o' :: r => Number.signedIn? 8 r
    | '+' :: r => Number.signed? r
    | _ => none
  match marked with
  | some n => some n
  | none => Number.signed? cs

def ofNullWord? (w : String) : Option Scalar := if w ∈ ["~", "null"] then some null else none

def ofBoolWord? (w : String) : Option Scalar :=
  if w = "true" then some (bool true) else if w = "false" then some (bool false) else none

def ofRealWord? (w : String) : Option Scalar := if isReal w then some (real w) else none

def ofWord (w : String) : Scalar :=
  match integer? w.toList with
  | some n => int n
  | none => ((ofNullWord? w <|> ofBoolWord? w) <|> ofRealWord? w).getD (text w)

/-- What a word means under a tag, if it can mean that. Under tags of other kinds it is a text. -/
def ofTagged? (handle suffix w : String) : Option Scalar :=
  if handle ≠ "tag:yaml.org,2002:" then some (text w)
  else if suffix = "bool" then ofBoolWord? w
  else if suffix = "int" then (Number.signed? w.toList).map int
  else if suffix = "float" then ofRealWord? w
  else if suffix = "null" then ofNullWord? w
  else some (text w)

def toValue? : Scalar → Option Value
  | null => some .null
  | bool b => some (.bool b)
  | int n => some (.int n)
  | real w => (Number.float? w.toList).map .float
  | text s => some (.str s)

def name? : Scalar → Option String
  | null => none
  | bool b => some (if b then "true" else "false")
  | int n => some (toString n)
  | real w => some w
  | text s => some s

end Scalar

end CachedCalls.Yaml
