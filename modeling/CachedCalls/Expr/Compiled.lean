import CachedCalls.Expr.Eval

set_option autoImplicit false

namespace CachedCalls

namespace Expr

inductive Use where
  | condition
  | key
  | unless_
  deriving DecidableEq

/-- A tree kept for a use of a text on an element. -/
structure CompiledEntry where
  use : Use
  element : Element
  text : String
  tree : Expr
  parsed : parse text = .ok tree

end Expr

abbrev Compiled := List Expr.CompiledEntry

namespace Compiled

open CachedCalls.Expr

def find? (c : Compiled) (u : Use) (el : Element) (text : String) : Option CompiledEntry :=
  List.find? (fun e => decide (e.use = u ∧ e.element = el ∧ e.text = text)) c

/-- The tree of a text, kept from now on; a text that does not parse leaves nothing behind. -/
def tree (c : Compiled) (u : Use) (el : Element) (text : String) :
    Except ExprError Expr × Compiled :=
  match c.find? u el text with
  | some e => (.ok e.tree, c)
  | none =>
    match h : parse text with
    | .ok t => (.ok t, ⟨u, el, text, t, h⟩ :: c)
    | .error e => (.error e, c)

def value (c : Compiled) (u : Use) (el : Element) (text : String) (s : Scope) :
    Except ExprError Value × Compiled :=
  let (t, c) := c.tree u el text
  (t.bind (eval s), c)

def test (c : Compiled) (u : Use) (el : Element) (text : String) (s : Scope) :
    Except ExprError Bool × Compiled :=
  let (v, c) := c.value u el text s
  (v.bind asTest, c)

theorem tree_fst (c : Compiled) (u : Use) (el : Element) (text : String) :
    (c.tree u el text).1 = parse text := by
  unfold tree
  split
  · next e h =>
    have hp := List.find?_some h
    simp only [decide_eq_true_eq] at hp
    rw [← hp.2.2, e.parsed]
  · split <;> simp_all

theorem value_fst (c : Compiled) (u : Use) (el : Element) (text : String) (s : Scope) :
    (c.value u el text s).1 = Expr.value text s := by
  simp only [value, tree_fst]
  rfl

theorem test_fst (c : Compiled) (u : Use) (el : Element) (text : String) (s : Scope) :
    (c.test u el text s).1 = (Expr.value text s).bind asTest := by
  simp only [test, value_fst]

end Compiled

end CachedCalls
