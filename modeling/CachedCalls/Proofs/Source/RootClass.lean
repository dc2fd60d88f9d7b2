import CachedCalls.Proofs.Source.Candidates

set_option autoImplicit false

namespace CachedCalls

/-- The same without anything of the root class. -/
def Provider.bare (p : Provider) : Provider where
  ofMethod m := if m.isObjectMethod then [] else p.ofMethod m
  ofType n := if n = objectName then [] else p.ofType n

/-- The lookup goes on with a method of the root class, though it asks for that of another type. -/
def LeftToObject (publicOnly : Bool) (m : Method) (t : TypeDecl) : Prop :=
  m.isObjectMethod = false ∧ (publicOnly && !m.isPublic) = false ∧
    (t.mostSpecific m).isObjectMethod = true

instance (b : Bool) (m : Method) (t : TypeDecl) : Decidable (LeftToObject b m t) :=
  inferInstanceAs (Decidable (_ ∧ _ ∧ _))

variable {p : Provider} {b : Bool} {m : Method} {t : TypeDecl}

theorem Provider.ofEither_bare (p : Provider) (u : Bool) (hm : m.isObjectMethod = false) :
    p.bare.ofEither u m = p.ofEither u m := by
  have htype : m.declaringType ≠ objectName := by simpa [Method.isObjectMethod] using hm
  simp [ofEither, bare, hm, htype]

theorem Provider.search_bare (p : Provider) (h : ¬ LeftToObject b m t) :
    p.bare.search b m t = p.search b m t := by
  unfold search
  by_cases hgate : ((b && !m.isPublic) || m.isObjectMethod) = true
  · rw [if_pos hgate, if_pos hgate]
  · rw [if_neg hgate, if_neg hgate]
    obtain ⟨hpublic, hm⟩ := Bool.or_eq_false_iff.1 (Bool.eq_false_iff.2 hgate)
    have hs : (t.mostSpecific m).isObjectMethod = false :=
      Bool.eq_false_iff.2 fun hs => h ⟨hm, hpublic, hs⟩
    simp only [ofEither_bare p _ hm, ofEither_bare p _ hs]

theorem Provider.search_bare_iff (b : Bool) (m : Method) (t : TypeDecl) :
    (∀ p : Provider, p.bare.search b m t = p.search b m t) ↔ ¬ LeftToObject b m t := by
  refine ⟨fun h ⟨hm, hpublic, hs⟩ => ?_, fun h p => p.search_bare h⟩
  have hsame := h ⟨fun n => if n.isObjectMethod then
    [⟨"", [], none, none, none, none, none, .cacheable none false⟩] else [], fun _ => []⟩
  simp [search, ofEither, bare, hm, hs, hpublic] at hsame

theorem Memo.lookup_bare (b : Bool) {past : List (Provider × Inquiry)} {e : Element}
    (h : ∀ q n u, (q, Inquiry.ask n u) ∈ past → n.element u = e → ¬ LeftToObject b n u) :
    (Memo.after b (past.map fun x => (x.1.bare, x.2))).lookup e =
      (Memo.after b past).lookup e := by
  induction past using List.reverseRecOn with
  | nil => rfl
  | append_singleton past x ih =>
    obtain ⟨q, i⟩ := x
    have hold := ih fun q n u hmem => h q n u (List.mem_append_left _ hmem)
    rw [List.map_append, List.map_cons, List.map_nil, Memo.after_append, Memo.after_append]
    cases i with
    | clear => rfl
    | ask n u =>
      simp only [Provider.next, Provider.lookup_ask]
      by_cases he : e = n.element u
      · have hsearch := q.search_bare (h q n u (by simp) he.symm)
        rw [if_pos he, if_pos he, Provider.ask_eq, Provider.ask_eq, ← he, hold, hsearch]
      · rw [if_neg he, if_neg he, hold]

/-- A lookup is answered as if nothing were attached to the root class, whatever its provider has
    known at any time, unless it or an earlier one of its element is left to the root class. -/
theorem ask_bare (p : Provider) (past : List (Provider × Inquiry)) (h : ¬ LeftToObject b m t)
    (hpast : ∀ q n u, (q, Inquiry.ask n u) ∈ past → n.element u = m.element t →
      ¬ LeftToObject b n u) :
    (p.ask b m t (Memo.after b past)).1 =
      (p.bare.ask b m t (Memo.after b (past.map fun x => (x.1.bare, x.2)))).1 := by
  rw [Provider.ask_eq, Provider.ask_eq, Memo.lookup_bare b hpast, p.search_bare h]

namespace TypeDecl

def told : Operation :=
  ⟨"Object", ["names"], none, none, none, none, none, .cacheable none false⟩

def rootTold : Declared := { types := [(objectName, [told]), ("Listed", [listing])] }

theorem ask_bare_listed : ¬ LeftToObject true listOfListed stall ∧
    (rootTold.provider.bare.ask true listOfListed stall (Memo.after true
      [(rootTold.provider.bare, .ask priceOfPriced stall)])).1 = [listing] := by
  have hlist : ¬ LeftToObject true listOfListed stall := by decide
  have hprice : ¬ LeftToObject true priceOfPriced stall := by decide
  have hanswer : (rootTold.provider.ask true listOfListed stall (Memo.after true
      [(rootTold.provider, .ask priceOfPriced stall)])).1 = [listing] := by decide
  have hbare := ask_bare rootTold.provider [(rootTold.provider, .ask priceOfPriced stall)] hlist
    fun q n u hmem _ => by
      cases List.mem_singleton.1 hmem
      exact hprice
  exact ⟨hlist, hbare.symm.trans hanswer⟩

def named : TypeDecl := .ofInterface "Named" [] [{ name := "to_string" }]

def product : TypeDecl := .ofClass "Product" none [named] []

/-- The product leaves the method of the interface to the root class, and so it has the operations
    that are attached to the root class alone. -/
theorem ask_object : ∃ (ts : List TypeDecl) (p : Provider) (m : Method) (t : TypeDecl),
    Hierarchy ts ∧ m ∈ ts.flatMap (·.methods) ∧ t ∈ ts ∧ m.isObjectMethod = false ∧
    (∀ n, p.ofMethod n = []) ∧ (∀ n, n ≠ objectName → p.ofType n = []) ∧
    (p.ask true m t []).1 = p.ofType objectName ∧ p.ofType objectName ≠ [] := by
  have hnamed : Hierarchy [named, object] :=
    (Hierarchy.nil.object (by decide)).ofInterface _ (by decide) (List.nil_subset _)
  have hproduct : Hierarchy [product, named, object] :=
    hnamed.ofClass _ (by decide) (by simp) (by simp)
  refine ⟨_, Declared.provider { types := [(objectName, [told])] },
    MethodDraft.on { name := "to_string" } "Named", product, hproduct, by decide,
    List.mem_cons_self, rfl, fun n => rfl, fun n hn => ?_, by decide, by decide⟩
  have hnone : List.lookup n [(objectName, [told])] = none := by
    rw [lookup_cons_if, if_neg hn, List.lookup_nil]
  simp [Declared.provider, Declared.ofType, hnone]

end TypeDecl

end CachedCalls
