import CachedCalls.Method.Basic

set_option autoImplicit false

namespace CachedCalls

inductive TypeDecl where
  | mk (name : String) (isInterface : Bool) (parent : Option TypeDecl)
      (interfaces : List TypeDecl) (methods : List Method)

namespace TypeDecl

def name : TypeDecl → String
  | mk n _ _ _ _ => n

def isInterface : TypeDecl → Bool
  | mk _ i _ _ _ => i

def parent : TypeDecl → Option TypeDecl
  | mk _ _ p _ _ => p

def interfaces : TypeDecl → List TypeDecl
  | mk _ _ _ is _ => is

def methods : TypeDecl → List Method
  | mk _ _ _ _ ms => ms

def object : TypeDecl :=
  mk objectName false none []
    ([{ name := "equals", params := [⟨"other", objectName⟩] }, { name := "hash_code" },
      { name := "to_string" }].map fun (d : MethodDraft) => d.on objectName)

def ofClass (name : String) (parent : Option TypeDecl) (interfaces : List TypeDecl)
    (methods : List MethodDraft) : TypeDecl :=
  mk name false (some (parent.getD object)) interfaces (methods.map (·.on name))

/-- Interfaces descend from interfaces only. -/
def ofInterface (name : String) (interfaces : List TypeDecl) (methods : List MethodDraft) :
    TypeDecl :=
  mk name true none interfaces (methods.map (·.on name))

def declaredNamed? (t : TypeDecl) (n : String) : Option Method := t.methods.find? (·.name == n)

def declared? (t : TypeDecl) (s : Signature) : Option Method :=
  t.methods.find? (fun m => decide (m.signature = s))

mutual

def named? (n : String) : TypeDecl → Option Method
  | mk _ _ p is ms => (ms.find? (·.name == n)).or ((namedAbove? n p).or (namedAmong? n is))

def namedAbove? (n : String) : Option TypeDecl → Option Method
  | none => none
  | some t => named? n t

def namedAmong? (n : String) : List TypeDecl → Option Method
  | [] => none
  | t :: ts => (named? n t).or (namedAmong? n ts)

end

mutual

def chain : TypeDecl → List TypeDecl
  | mk n i p is ms => mk n i p is ms :: chainAbove p

def chainAbove : Option TypeDecl → List TypeDecl
  | none => []
  | some t => chain t

end

mutual

/-- Adds an interface and all it descends from, in the order of a first visit; a name that is
    there already is not visited again. -/
def visit (found : List TypeDecl) : TypeDecl → List TypeDecl
  | mk n i p is ms =>
    if found.any (·.name == n) then found else visitAll (found ++ [mk n i p is ms]) is

def visitAll (found : List TypeDecl) : List TypeDecl → List TypeDecl
  | [] => found
  | t :: ts => visitAll (visit found t) ts

end

/-- The interfaces of the whole chain, nearest class first. -/
def allInterfaces (t : TypeDecl) : List TypeDecl :=
  t.chain.foldl (fun found u => visitAll found u.interfaces) []

/-- The method that a call with this signature reaches. -/
def find? (t : TypeDecl) (s : Signature) : Option Method :=
  (t.chain.findSome? (·.declared? s)).or (t.allInterfaces.findSome? (·.declared? s))

/-- The implementation of `m` that an object of type `t` runs. -/
def mostSpecific (t : TypeDecl) (m : Method) : Method :=
  if m.declaringType = t.name ∨ m.isOverridable = false then m else (t.find? m.signature).getD m

mutual

def assignable (n : String) : TypeDecl → Bool
  | mk m _ p is _ => m == n || (assignableAbove n p || assignableAmong n is)

def assignableAbove (n : String) : Option TypeDecl → Bool
  | none => false
  | some t => assignable n t

def assignableAmong (n : String) : List TypeDecl → Bool
  | [] => false
  | t :: ts => assignable n t || assignableAmong n ts

end

end TypeDecl

structure Target where
  type : TypeDecl
  state : Value

def Method.element (m : Method) (t : TypeDecl) : Element := ⟨m.key, t.name⟩

end CachedCalls
