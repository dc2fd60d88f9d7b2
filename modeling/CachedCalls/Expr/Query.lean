import CachedCalls.Expr.Compiled

set_option autoImplicit false

namespace CachedCalls.Expr

/-- A `value` goes past the kept trees. -/
inductive Query where
  | value (text : String)
  | key (text : String)
  | test (u : Use) (text : String)
  | variable_ (name : String)
  | rootProperty (name : String)
  | root
  | count
  | clear

inductive Answer where
  | value (v : Value)
  | test (b : Bool)
  | count (n : Nat)
  | nothing
  | error (e : ExprError)

def Answer.ofValue : Except ExprError Value → Answer
  | .ok v => value v
  | .error e => error e

def Answer.ofTest : Except ExprError Bool → Answer
  | .ok b => test b
  | .error e => error e

def Query.answer (q : Query) (el : Element) (s : Scope) (c : Compiled) : Answer × Compiled :=
  match q with
  | value t => (.ofValue (Expr.value t s), c)
  | key t =>
    let (v, c) := c.value .key el t s
    (.ofValue v, c)
  | test u t =>
    let (b, c) := c.test u el t s
    (.ofTest b, c)
  | variable_ n => (.ofValue (s.lookup n), c)
  | rootProperty n =>
    match s.rootProperty? n with
    | some v => (.value v, c)
    | none => (.nothing, c)
  | root => (.value s.root, c)
  | count => (.count c.length, c)
  | clear => (.count 0, [])

def answers (c : Compiled) : List (Query × Element × Scope) → List Answer
  | [] => []
  | (q, el, s) :: qs =>
    let (a, c) := q.answer el s c
    a :: answers c qs

end CachedCalls.Expr
