import CachedCalls.Value.Basic

set_option autoImplicit false

namespace CachedCalls

inductive Visibility where
  | anyone
  | family
  | package
  | owner
  deriving DecidableEq

def Visibility.word : Visibility → String
  | .anyone => "public"
  | .family => "protected"
  | .package => "package"
  | .owner => "private"

structure Signature where
  name : String
  paramTypes : List String
  deriving DecidableEq

def Signature.text (s : Signature) : String :=
  s.name ++ "(" ++ ", ".intercalate s.paramTypes ++ ")"

structure MethodKey where
  declaringType : String
  signature : Signature
  deriving DecidableEq

def MethodKey.text (k : MethodKey) : String := k.declaringType ++ "." ++ k.signature.text

/-- A method seen on a target type: the same method reached through two types is two elements. -/
structure Element where
  method : MethodKey
  targetType : String
  deriving DecidableEq

def Element.text (e : Element) : String := e.method.text ++ " on " ++ e.targetType

def Signature.compare (a b : Signature) : Ordering :=
  (Ord.compare a.name b.name).then (Ord.compare a.paramTypes b.paramTypes)

def MethodKey.compare (a b : MethodKey) : Ordering :=
  (Ord.compare a.declaringType b.declaringType).then (a.signature.compare b.signature)

def Element.compare (a b : Element) : Ordering :=
  (a.method.compare b.method).then (Ord.compare a.targetType b.targetType)

def Element.insert (e : Element) : List Element → List Element
  | [] => [e]
  | f :: fs =>
    match e.compare f with
    | .lt => e :: f :: fs
    | .eq => f :: fs
    | .gt => f :: Element.insert e fs

def Element.sorted (es : List Element) : List Element := es.foldr Element.insert []

structure Param where
  name : String
  typeName : String
  deriving DecidableEq

structure Method where
  declaringType : String
  name : String
  params : List Param
  visibility : Visibility
  varargs : Bool
  synthetic : Bool
  deriving DecidableEq

structure MethodDraft where
  name : String
  params : List Param := []
  visibility : Visibility := .anyone
  varargs : Bool := false
  synthetic : Bool := false
  deriving DecidableEq

/-- A variadic method needs a parameter to collect into. -/
def MethodDraft.on (d : MethodDraft) (type : String) : Method where
  declaringType := type
  name := d.name
  params := d.params
  visibility := d.visibility
  varargs := d.varargs && !d.params.isEmpty
  synthetic := d.synthetic

def objectName : String := "Object"

namespace Method

def paramNames (m : Method) : List String := m.params.map (·.name)

def signature (m : Method) : Signature := ⟨m.name, m.params.map (·.typeName)⟩

def key (m : Method) : MethodKey := ⟨m.declaringType, m.signature⟩

def text (m : Method) : String := m.key.text

def isPublic (m : Method) : Bool := m.visibility == .anyone

def isUserLevel (m : Method) : Bool := !m.synthetic

def isObjectMethod (m : Method) : Bool := m.declaringType == objectName

def isOverridable (m : Method) : Bool := m.visibility != .owner

end Method

end CachedCalls
