import CachedCalls.Method.Hierarchy
import CachedCalls.Source.Declared

/-!
The operations of a call: those of the method that is run, else of the type declaring it, else of
the method that was called, else of the type declaring that. What was found is kept for each
element, also when nothing was.
-/

set_option autoImplicit false

namespace CachedCalls

structure Provider where
  ofMethod : Method → List Operation
  ofType : String → List Operation

def Declared.provider (d : Declared) : Provider := ⟨fun m => d.ofMethod m.key, d.ofType⟩

abbrev Memo := List (Element × List Operation)

namespace Provider

/-- The operations of a method, else of its type; a synthetic call does not look at types. -/
def ofEither (p : Provider) (userLevel : Bool) (m : Method) : List Operation :=
  let found := p.ofMethod m
  if found.isEmpty && userLevel then p.ofType m.declaringType else found

/-- Methods of the root class have no operations, nor have methods that are not public where only
    public ones count. -/
def search (p : Provider) (publicOnly : Bool) (m : Method) (t : TypeDecl) : List Operation :=
  if (publicOnly && !m.isPublic) || m.isObjectMethod then []
  else
    let specific := t.mostSpecific m
    let found := p.ofEither m.isUserLevel specific
    if found.isEmpty && decide (specific.key ≠ m.key) then p.ofEither m.isUserLevel m else found

/-- An element is searched for once, and the answer is kept. -/
def ask (p : Provider) (publicOnly : Bool) (m : Method) (t : TypeDecl) (memo : Memo) :
    List Operation × Memo :=
  match memo.lookup (m.element t) with
  | some os => (os, memo)
  | none =>
    let os := p.search publicOnly m t
    (os, (m.element t, os) :: memo)

end Provider

structure Fallback where
  declared : Declared := {}
  publicOnly : Bool := true
  memo : Memo := []

namespace Fallback

def ask (f : Fallback) (m : Method) (t : TypeDecl) : List Operation × Fallback :=
  let (os, memo) := f.declared.provider.ask f.publicOnly m t f.memo
  (os, { f with memo })

def clear (f : Fallback) : Fallback := { f with memo := [] }

def memoized (f : Fallback) : Nat := f.memo.length

end Fallback

end CachedCalls
