import CachedCalls.Method.Basic
import CachedCalls.Operation.Draft

set_option autoImplicit false

namespace CachedCalls

inductive Declaration where
  | defaults (type : String) (d : Defaults)
  | type (type : String) (ops : List Draft)
  | method (m : Method) (ops : List Draft)

structure Declared where
  defaults : List (String × Defaults) := []
  methods : List (MethodKey × List Operation) := []
  types : List (String × List Operation) := []

/-- An operation without a name is named after what it is declared on. -/
def Draft.named (d : Draft) (n : String) : Draft := if d.name.isEmpty then { d with name := n } else d

def Draft.buildAll (n : String) (f : Defaults) (ops : List Draft) :
    Except OperationFault (List Operation) :=
  ops.mapM fun d => ((d.named n).inherit f).build

namespace Declared

def defaultsOf (d : Declared) (type : String) : Defaults := (d.defaults.lookup type).getD {}

/-- A declaration of no operations leaves everything as it was. -/
def declare (d : Declared) : Declaration → Except OperationFault Declared
  | .defaults t f => .ok { d with defaults := (t, f) :: d.defaults }
  | .type t ops => do
    let os ← Draft.buildAll t (d.defaultsOf t) ops
    if os.isEmpty then pure d else pure { d with types := (t, os) :: d.types }
  | .method m ops => do
    let os ← Draft.buildAll m.text (d.defaultsOf m.declaringType) ops
    if os.isEmpty then pure d else pure { d with methods := (m.key, os) :: d.methods }

def ofMethod (d : Declared) (k : MethodKey) : List Operation := (d.methods.lookup k).getD []

def ofType (d : Declared) (t : String) : List Operation := (d.types.lookup t).getD []

end Declared

end CachedCalls
