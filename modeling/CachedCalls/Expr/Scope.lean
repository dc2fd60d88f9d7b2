import CachedCalls.Expr.Error
import CachedCalls.Method.Hierarchy
import CachedCalls.Number.Literal

set_option autoImplicit false

namespace CachedCalls

/-- What is `unset` reads as null; `pending` means that the call will have a result, but has none
    yet. -/
inductive ResultState where
  | unset
  | pending
  | available (v : Value)

/-- Parameter names come from `implementation`, all else about the method from `method`. -/
structure Scope where
  method : Method
  implementation : Method
  target : Target
  args : List Value
  caches : List String
  result : ResultState

namespace Scope

def resultName : String := "result"

def rootProperties (s : Scope) : List (String × Value) :=
  [("args", .arr s.args),
   ("caches", .arr (s.caches.map fun n => .obj [("name", .str n)])),
   ("method", .obj
     [("declaringType", .str s.method.declaringType), ("name", .str s.method.name),
      ("parameterTypes", .strs s.method.signature.paramTypes)]),
   ("methodName", .str s.method.name),
   ("target", s.target.state),
   ("targetClass", .str s.target.type.name)]

def rootProperty? (s : Scope) (n : String) : Option Value := s.rootProperties.lookup n

def root (s : Scope) : Value := .obj s.rootProperties

/-- The number in `a0` or `p0`, if it is the position of a parameter. -/
def position? (n : String) (count : Nat) : Option Nat :=
  match n.toList with
  | c :: ds => if c = 'a' ∨ c = 'p' then (Number.word? ds).filter (· < count) else none
  | [] => none

def paramIndex? (s : Scope) (n : String) : Option Nat :=
  let names := s.implementation.paramNames
  (position? n names.length).or (names.findIdx? (· == n))

/-- With more arguments than parameters the last parameter holds all that remain. -/
def argument (s : Scope) (i : Nat) : Value :=
  let count := s.implementation.params.length
  if count < s.args.length ∧ i + 1 = count then .arr (s.args.drop i) else (s.args[i]?).getD .null

def lookup (s : Scope) (n : String) : Except ExprError Value :=
  if n = resultName then
    match s.result with
    | .available v => .ok v
    | .unset => .ok .null
    | .pending => .error (.notAvailable n)
  else if n = "root" ∨ n = "this" then .ok s.root
  else
    match s.paramIndex? n with
    | some i => .ok (s.argument i)
    | none => .ok .null

end Scope

end CachedCalls
