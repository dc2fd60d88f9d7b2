set_option autoImplicit false

namespace CachedCalls

inductive OperationKind where
  | cacheable (unless_ : Option String) (sync : Bool)
  | put (unless_ : Option String)
  | evict (allEntries : Bool) (beforeInvocation : Bool)
  deriving DecidableEq

namespace OperationKind

def label : OperationKind → String
  | cacheable _ _ => "Cacheable"
  | put _ => "Put"
  | evict _ _ => "Evict"

def veto : OperationKind → Option String
  | cacheable u _ => u
  | put u => u
  | evict _ _ => none

def isSync : OperationKind → Bool
  | cacheable _ s => s
  | _ => false

end OperationKind

structure Operation where
  name : String
  cacheNames : List String
  key : Option String
  keyGenerator : Option String
  manager : Option String
  resolver : Option String
  condition : Option String
  kind : OperationKind
  deriving DecidableEq

def boolText : Bool → String
  | true => "true"
  | false => "false"

def attributeText (label : String) (v : Option String) : String :=
  " | " ++ label ++ "='" ++ v.getD "" ++ "'"

def OperationKind.text : OperationKind → String
  | cacheable u s => attributeText "unless" u ++ " | sync='" ++ boolText s ++ "'"
  | put u => attributeText "unless" u
  | evict a b => "," ++ boolText a ++ "," ++ boolText b

namespace Operation

def description (o : Operation) : String :=
  o.kind.label ++ "[" ++ o.name ++ "] caches=[" ++ ", ".intercalate o.cacheNames ++ "]" ++
    attributeText "key" o.key ++ attributeText "keyGenerator" o.keyGenerator ++
    attributeText "cacheManager" o.manager ++ attributeText "cacheResolver" o.resolver ++
    attributeText "condition" o.condition ++ o.kind.text

/-- Two operations with one description count as one. -/
def sameAs (a b : Operation) : Bool := a.description == b.description

end Operation

end CachedCalls
