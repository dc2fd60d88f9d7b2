import CachedCalls.Expr.Query
import Mathlib.Data.Finset.Card

set_option autoImplicit false

namespace CachedCalls

namespace Expr

abbrev Site := Use × Element × String

def CompiledEntry.site (e : CompiledEntry) : Site := (e.use, e.element, e.text)

namespace Query

def site? (el : Element) : Query → Option Site
  | key t => some (.key, el, t)
  | test u t => some (u, el, t)
  | _ => none

def isClear : Query → Bool
  | clear => true
  | _ => false

end Query

/-- What the queries since the last clear needed trees for, where the text parses. -/
def sites (past : List (Query × Element × Scope)) : Finset Site :=
  (((past.reverse.takeWhile fun x => !x.1.isClear).filterMap fun x =>
    x.1.site? x.2.1).filter fun x => (parse x.2.2).isOk).toFinset

def Answer.ofVerdict : Except ExprError Value → Answer
  | .ok (.bool b) => test b
  | .ok .null => test false
  | .ok v => error (.mismatch .boolean v.kind)
  | .error e => error e

/-- The answer to a query after others, by an evaluator that parses every text anew. -/
def Query.fresh (past : List (Query × Element × Scope)) (q : Query) (el : Element) (s : Scope) :
    Answer :=
  match q with
  | key t => .ofValue ((parse t).bind (eval s))
  | test _ t => .ofVerdict ((parse t).bind (eval s))
  | count => .count (sites past).card
  | clear => .count 0
  | q => (q.answer el s []).1

theorem Answer.ofTest_asTest (v : Except ExprError Value) :
    ofTest (v.bind asTest) = ofVerdict v := by
  cases v with
  | error e => rfl
  | ok v => cases v <;> rfl

section Sites

variable (past : List (Query × Element × Scope)) (el : Element) (s : Scope)

theorem sites_clear : sites (past ++ [(.clear, el, s)]) = ∅ := by
  simp [sites, Query.isClear]

variable {q : Query}

theorem sites_other (hq : q.isClear = false) (hsite : q.site? el = none) :
    sites (past ++ [(q, el, s)]) = sites past := by
  simp [sites, hq, hsite]

theorem sites_tree (hq : q.isClear = false) {x : Site} (hsite : q.site? el = some x) :
    sites (past ++ [(q, el, s)]) =
      if (parse x.2.2).isOk then insert x (sites past) else sites past := by
  cases hx : (parse x.2.2).isOk <;> simp [sites, hq, hsite, hx]

end Sites

end Expr

namespace Compiled

open CachedCalls.Expr

/-- There is one tree for each of the sites, and no other. -/
structure Serves (c : Compiled) (xs : Finset Site) : Prop where
  nodup : (c.map CompiledEntry.site).Nodup
  mem : ∀ x, x ∈ c.map CompiledEntry.site ↔ x ∈ xs

namespace Serves

variable {c : Compiled} {xs : Finset Site}

theorem empty : Serves [] ∅ := ⟨List.nodup_nil, fun x => by simp⟩

theorem length_eq (h : Serves c xs) : c.length = xs.card := by
  have hxs : (c.map CompiledEntry.site).toFinset = xs := by
    ext x
    rw [List.mem_toFinset, h.mem]
  rw [← hxs, List.toFinset_card_of_nodup h.nodup, List.length_map]

end Serves

theorem find?_site {c : Compiled} {u : Use} {el : Element} {text : String} {e : CompiledEntry}
    (h : c.find? u el text = some e) : e ∈ c ∧ e.site = (u, el, text) := by
  have hsite := List.find?_some h
  simp only [decide_eq_true_eq] at hsite
  obtain ⟨rfl, rfl, rfl⟩ := hsite
  exact ⟨List.mem_of_find?_eq_some h, rfl⟩

theorem find?_none {c : Compiled} {u : Use} {el : Element} {text : String}
    (h : c.find? u el text = none) : (u, el, text) ∉ c.map CompiledEntry.site := by
  intro hmem
  obtain ⟨e, he, hsite⟩ := List.mem_map.1 hmem
  obtain ⟨rfl, rfl, rfl⟩ := hsite
  simpa using List.find?_eq_none.1 h e he

theorem tree_cases (c : Compiled) (u : Use) (el : Element) (text : String) :
    ((parse text).isOk = true ∧ (u, el, text) ∈ c.map CompiledEntry.site ∧
        (c.tree u el text).2 = c) ∨
      ((parse text).isOk = true ∧ (u, el, text) ∉ c.map CompiledEntry.site ∧
        ∃ e : CompiledEntry, e.site = (u, el, text) ∧ (c.tree u el text).2 = e :: c) ∨
      ((parse text).isOk = false ∧ (c.tree u el text).2 = c) := by
  unfold tree
  cases hfind : c.find? u el text with
  | some e =>
    obtain ⟨he, hsite⟩ := find?_site hfind
    have hmem : (u, el, text) ∈ c.map CompiledEntry.site := List.mem_map.2 ⟨e, he, hsite⟩
    have htext : e.text = text := congrArg (·.2.2) hsite
    have hparse : (parse text).isOk = true := by
      rw [← htext, e.parsed]
      rfl
    exact .inl ⟨hparse, hmem, rfl⟩
  | none =>
    have hmem := find?_none hfind
    dsimp only
    split
    · next t ht =>
      have hparse : (parse text).isOk = true := by
        rw [ht]
        rfl
      exact .inr (.inl ⟨hparse, hmem, ⟨u, el, text, t, ht⟩, rfl, rfl⟩)
    · next f hf =>
      have hparse : (parse text).isOk = false := by
        rw [hf]
        rfl
      exact .inr (.inr ⟨hparse, rfl⟩)

theorem Serves.tree {c : Compiled} {xs : Finset Site} (h : Serves c xs) (u : Use) (el : Element)
    (text : String) : Serves (c.tree u el text).2
      (if (parse text).isOk then insert (u, el, text) xs else xs) := by
  obtain ⟨hparse, hmem, htree⟩ | ⟨hparse, hmem, e, hsite, htree⟩ | ⟨hparse, htree⟩ :=
    tree_cases c u el text
  · rw [htree, if_pos hparse, Finset.insert_eq_of_mem ((h.mem _).1 hmem)]
    exact h
  · rw [htree, if_pos hparse]
    refine ⟨?_, fun x => ?_⟩
    · rw [List.map_cons, hsite]
      exact List.nodup_cons.2 ⟨hmem, h.nodup⟩
    · rw [List.map_cons, hsite, List.mem_cons, Finset.mem_insert, h.mem]
  · rw [htree, if_neg (Bool.eq_false_iff.1 hparse)]
    exact h

theorem Serves.answer {c : Compiled} {past : List (Query × Element × Scope)}
    (h : Serves c (sites past)) (q : Query) (el : Element) (s : Scope) :
    Serves (q.answer el s c).2 (sites (past ++ [(q, el, s)])) := by
  cases q with
  | key t =>
    rw [sites_tree past el s rfl rfl]
    exact h.tree .key el t
  | test u t =>
    rw [sites_tree past el s rfl rfl]
    exact h.tree u el t
  | clear =>
    rw [sites_clear]
    exact .empty
  | value t | variable_ n | root | count =>
    rw [sites_other past el s rfl rfl]
    exact h
  | rootProperty n =>
    have hkept : ((Query.rootProperty n).answer el s c).2 = c := by
      simp only [Query.answer]
      split <;> rfl
    rw [hkept, sites_other past el s rfl rfl]
    exact h

theorem Serves.fresh {c : Compiled} {past : List (Query × Element × Scope)}
    (h : Serves c (sites past)) (q : Query) (el : Element) (s : Scope) :
    (q.answer el s c).1 = q.fresh past el s := by
  cases q with
  | key t => exact congrArg Answer.ofValue (c.value_fst .key el t s)
  | test u t => exact (congrArg Answer.ofTest (c.test_fst u el t s)).trans (Answer.ofTest_asTest _)
  | count => exact congrArg Answer.count h.length_eq
  | value t | variable_ n | root | clear => rfl
  | rootProperty n =>
    simp only [Query.answer, Query.fresh]
    split <;> rfl

end Compiled

namespace Expr

theorem answers_after {c : Compiled} {past : List (Query × Element × Scope)}
    (h : c.Serves (sites past)) (qs : List (Query × Element × Scope)) (i : Nat) :
    (answers c qs)[i]? = qs[i]?.map fun x => x.1.fresh (past ++ qs.take i) x.2.1 x.2.2 := by
  induction qs generalizing c past i with
  | nil => rfl
  | cons x qs ih =>
    obtain ⟨q, el, s⟩ := x
    rw [answers]
    cases i with
    | zero => simpa using h.fresh q el s
    | succ i => simpa using ih (h.answer q el s) i

/-- Each answer of a series is the one that parsing and evaluating the text anew gives, and trees
    are counted as they were needed since the last clear, by the texts that parse. -/
theorem answers_fresh (qs : List (Query × Element × Scope)) (i : Nat) :
    (answers [] qs)[i]? = qs[i]?.map fun x => x.1.fresh (qs.take i) x.2.1 x.2.2 := by
  have hempty : Compiled.Serves [] (sites []) := .empty
  exact answers_after hempty qs i

end Expr

end CachedCalls
