import Mathlib.Data.Finset.Card
import CachedCalls.Proofs.Association
import CachedCalls.Proofs.Method.Resolution
import CachedCalls.Source.Fallback

set_option autoImplicit false

namespace CachedCalls

inductive Inquiry where
  | ask (m : Method) (t : TypeDecl)
  | clear

namespace Inquiry

def element? : Inquiry → Option Element
  | ask m t => some (m.element t)
  | clear => none

/-- The elements that were asked for since the last clear. -/
def sought (past : List Inquiry) : Finset Element :=
  ((past.reverse.takeWhile fun q => q.element?.isSome).filterMap element?).toFinset

theorem sought_clear (past : List Inquiry) : sought (past ++ [clear]) = ∅ := by
  simp [sought, element?]

theorem sought_ask (past : List Inquiry) (m : Method) (t : TypeDecl) :
    sought (past ++ [ask m t]) = insert (m.element t) (sought past) := by
  simp [sought, element?]

end Inquiry

def firstNonEmpty (ls : List (List Operation)) : List Operation :=
  (ls.find? fun os => !os.isEmpty).getD []

theorem firstNonEmpty_cons (os : List Operation) (ls : List (List Operation)) :
    firstNonEmpty (os :: ls) = if os.isEmpty then firstNonEmpty ls else os := by
  cases os <;> rfl

theorem Declared.provider_keyed (d : Declared) {m n : Method} (h : m.key = n.key) :
    d.provider.ofMethod m = d.provider.ofMethod n :=
  congrArg d.ofMethod h

namespace Provider

/-- Where a lookup looks, in order. A synthetic call has no operations of types. -/
def candidates (p : Provider) (m : Method) (t : TypeDecl) : List (List Operation) :=
  let ofType (n : String) := if m.synthetic then [] else p.ofType n
  [p.ofMethod (t.mostSpecific m), ofType (t.mostSpecific m).declaringType, p.ofMethod m,
    ofType m.declaringType]

def next (p : Provider) (publicOnly : Bool) (memo : Memo) : Inquiry → Memo
  | .ask m t => (p.ask publicOnly m t memo).2
  | .clear => []

end Provider

/-- What is kept after a run, in which the provider can be another one each time. -/
def Memo.after (publicOnly : Bool) (past : List (Provider × Inquiry)) : Memo :=
  past.foldl (fun memo x => x.1.next publicOnly memo x.2) []

theorem Memo.after_append (b : Bool) (past : List (Provider × Inquiry)) (x : Provider × Inquiry) :
    Memo.after b (past ++ [x]) = x.1.next b (Memo.after b past) x.2 := by
  simp [Memo.after]

variable {p : Provider} {b : Bool} {m : Method} {t : TypeDecl} {memo : Memo}

namespace Provider

theorem ofEither_eq (p : Provider) (u : Bool) (m : Method) (ls : List (List Operation)) :
    firstNonEmpty (p.ofMethod m :: (if u then p.ofType m.declaringType else []) :: ls) =
      if (p.ofEither u m).isEmpty then firstNonEmpty ls else p.ofEither u m := by
  rw [firstNonEmpty_cons, firstNonEmpty_cons]
  unfold ofEither
  cases hm : (p.ofMethod m).isEmpty <;> cases u <;> simp [hm]

theorem search_eq (hp : ∀ m n : Method, m.key = n.key → p.ofMethod m = p.ofMethod n) (b : Bool)
    (m : Method) (t : TypeDecl) : p.search b m t =
      if m.declaringType = objectName ∨ (b = true ∧ m.visibility ≠ .anyone) then []
      else firstNonEmpty (p.candidates m t) := by
  have hgate : ((b && !m.isPublic) || m.isObjectMethod) = true ↔
      m.declaringType = objectName ∨ (b = true ∧ m.visibility ≠ .anyone) := by
    simp [Method.isPublic, Method.isObjectMethod, or_comm]
  unfold search
  by_cases h : m.declaringType = objectName ∨ (b = true ∧ m.visibility ≠ .anyone)
  · rw [if_pos (hgate.2 h), if_pos h]
  · rw [if_neg (mt hgate.1 h), if_neg h]
    have hlast : firstNonEmpty
        [p.ofMethod m, if m.isUserLevel then p.ofType m.declaringType else []] =
          p.ofEither m.isUserLevel m := by
      rw [ofEither_eq]
      split
      · next he => exact (List.isEmpty_iff.1 he).symm
      · rfl
    have hsplit : p.candidates m t = p.ofMethod (t.mostSpecific m) ::
        (if m.isUserLevel then p.ofType (t.mostSpecific m).declaringType else []) ::
        [p.ofMethod m, if m.isUserLevel then p.ofType m.declaringType else []] := by
      cases hs : m.synthetic <;> simp [candidates, Method.isUserLevel, hs]
    rw [hsplit, ofEither_eq, hlast]
    by_cases hkey : (t.mostSpecific m).key = m.key
    · have hsame : p.ofEither m.isUserLevel (t.mostSpecific m) = p.ofEither m.isUserLevel m := by
        have htype : (t.mostSpecific m).declaringType = m.declaringType :=
          congrArg MethodKey.declaringType hkey
        rw [ofEither, ofEither, hp _ _ hkey, htype]
      simp [hkey, hsame]
    · simp [hkey]

theorem ask_eq (p : Provider) (b : Bool) (m : Method) (t : TypeDecl) (memo : Memo) :
    (p.ask b m t memo).1 = (memo.lookup (m.element t)).getD (p.search b m t) := by
  unfold ask
  cases memo.lookup (m.element t) <;> rfl

theorem lookup_ask (p : Provider) (b : Bool) (m : Method) (t : TypeDecl) (memo : Memo)
    (e : Element) : (p.ask b m t memo).2.lookup e =
      if e = m.element t then some (p.ask b m t memo).1 else memo.lookup e := by
  unfold ask
  cases h : memo.lookup (m.element t) with
  | some os =>
    by_cases he : e = m.element t
    · rw [if_pos he, he, h]
    · rw [if_neg he]
  | none => exact lookup_cons_if _ _ _

end Provider

/-- There is one entry for each of the elements, and no other. -/
structure Memo.Keeps (memo : Memo) (es : Finset Element) : Prop where
  nodup : (memo.map (·.1)).Nodup
  mem : ∀ e, e ∈ memo.map (·.1) ↔ e ∈ es

namespace Memo.Keeps

variable {es : Finset Element}

theorem length_eq (h : memo.Keeps es) : memo.length = es.card := by
  have hes : (memo.map (·.1)).toFinset = es := by
    ext e
    rw [List.mem_toFinset, h.mem]
  rw [← hes, List.toFinset_card_of_nodup h.nodup, List.length_map]

theorem ask (h : memo.Keeps es) (p : Provider) (b : Bool) (m : Method) (t : TypeDecl) :
    Memo.Keeps (p.ask b m t memo).2 (insert (m.element t) es) := by
  unfold Provider.ask
  cases hl : memo.lookup (m.element t) with
  | some os =>
    obtain ⟨l₁, l₂, rfl, -⟩ := List.lookup_eq_some_iff.1 hl
    have hmem : m.element t ∈ es := (h.mem _).1 (by simp)
    rw [Finset.insert_eq_of_mem hmem]
    exact h
  | none =>
    have hnew : m.element t ∉ memo.map (·.1) := by
      intro hmem
      obtain ⟨x, hx, he⟩ := List.mem_map.1 hmem
      exact bne_iff_ne.1 (List.lookup_eq_none_iff.1 hl x hx) he.symm
    refine ⟨List.nodup_cons.2 ⟨hnew, h.nodup⟩, fun e => ?_⟩
    rw [List.map_cons, List.mem_cons, Finset.mem_insert, h.mem]

theorem after (b : Bool) (past : List (Provider × Inquiry)) :
    (Memo.after b past).Keeps (Inquiry.sought (past.map (·.2))) := by
  induction past using List.reverseRecOn with
  | nil => exact ⟨List.nodup_nil, fun e => by simp [Memo.after, Inquiry.sought]⟩
  | append_singleton past x ih =>
    obtain ⟨p, q⟩ := x
    rw [Memo.after_append, List.map_append]
    cases q with
    | ask m t =>
      have hsought := Inquiry.sought_ask (past.map (·.2)) m t
      simp only [List.map_cons, List.map_nil, hsought]
      exact ih.ask p b m t
    | clear =>
      have hsought := Inquiry.sought_clear (past.map (·.2))
      simp only [List.map_cons, List.map_nil, hsought]
      exact ⟨List.nodup_nil, fun e => by simp [Provider.next]⟩

end Memo.Keeps

theorem Memo.lookup_after (b : Bool) {past : List Inquiry} {e : Element} {os : List Operation}
    (h : (Memo.after b (past.map (p, ·))).lookup e = some os) :
    ∃ m t, .ask m t ∈ past ∧ m.element t = e ∧ os = p.search b m t := by
  induction past using List.reverseRecOn generalizing os with
  | nil => cases h
  | append_singleton past q ih =>
    have hold {os : List Operation} (h : (Memo.after b (past.map (p, ·))).lookup e = some os) :
        ∃ m t, .ask m t ∈ past ++ [q] ∧ m.element t = e ∧ os = p.search b m t := by
      obtain ⟨m, t, hmem, he, hos⟩ := ih h
      exact ⟨m, t, List.mem_append_left _ hmem, he, hos⟩
    rw [List.map_append, List.map_cons, List.map_nil, Memo.after_append] at h
    cases q with
    | clear => cases h
    | ask m t =>
      rw [Provider.next, Provider.lookup_ask] at h
      split at h
      · next he =>
        rw [Provider.ask_eq] at h
        cases hl : (Memo.after b (past.map (p, ·))).lookup (m.element t) with
        | some os' =>
          rw [hl, Option.getD_some] at h
          cases h
          exact hold (he ▸ hl)
        | none =>
          rw [hl, Option.getD_none] at h
          cases h
          exact ⟨m, t, by simp, he.symm, rfl⟩
      · exact hold h

/-- No two methods of the types have one key. -/
def KeysUnique (ts : List TypeDecl) : Prop :=
  ∀ m ∈ ts.flatMap (·.methods), ∀ n ∈ ts.flatMap (·.methods), m.key = n.key → m = n

instance (ts : List TypeDecl) : Decidable (KeysUnique ts) :=
  inferInstanceAs (Decidable (∀ m ∈ ts.flatMap (·.methods), ∀ n ∈ ts.flatMap (·.methods),
    m.key = n.key → m = n))

/-- A lookup is answered with the first candidate that is not empty, whatever was asked before, and
    there is one answer kept for each element that was asked for since the last clear. -/
theorem ask_candidates {ts : List TypeDecl} (hts : Hierarchy ts) (hkeys : KeysUnique ts)
    (hp : ∀ m n : Method, m.key = n.key → p.ofMethod m = p.ofMethod n) (b : Bool)
    {past : List Inquiry}
    (hpast : ∀ m t, .ask m t ∈ past → m ∈ ts.flatMap (·.methods) ∧ t ∈ ts)
    (hm : m ∈ ts.flatMap (·.methods)) (ht : t ∈ ts) :
    (p.ask b m t (Memo.after b (past.map (p, ·)))).1 =
        (if m.declaringType = objectName ∨ (b = true ∧ m.visibility ≠ .anyone) then []
          else firstNonEmpty (p.candidates m t)) ∧
      (Memo.after b (past.map (p, ·))).length = (Inquiry.sought past).card := by
  constructor
  · rw [Provider.ask_eq, ← Provider.search_eq hp b m t]
    cases hl : (Memo.after b (past.map (p, ·))).lookup (m.element t) with
    | none => rfl
    | some os =>
      obtain ⟨n, u, hmem, he, rfl⟩ := Memo.lookup_after b hl
      obtain ⟨hn, hu⟩ := hpast n u hmem
      have hmethod : n = m := hkeys n hn m hm (congrArg Element.method he)
      have htype : u = t := hts.eq_of_name hu ht (congrArg Element.targetType he)
      rw [hmethod, htype]
      rfl
  · have hlen := (Memo.Keeps.after b (past.map (p, ·))).length_eq
    simpa [Function.comp_def] using hlen

namespace TypeDecl

def priceOfPriced : Method := MethodDraft.on { name := "price" } "Priced"

def listOfListed : Method := MethodDraft.on { name := "list" } "Listed"

def listing : Operation :=
  ⟨"Listed", ["offers"], none, none, none, none, none, .cacheable none false⟩

def listings : Declared := { types := [("Listed", [listing])] }

def visits : List Inquiry :=
  [.ask priceOfPriced shop, .clear, .ask listOfListed stall, .ask priceOfPriced stall,
    .ask listOfListed stall]

theorem ask_candidates_listed : Hierarchy market ∧ KeysUnique market ∧
    (listings.provider.ask true listOfListed stall
      (Memo.after true (visits.map (listings.provider, ·)))).1 = [listing] ∧
    (Memo.after true (visits.map (listings.provider, ·))).length = 2 := by
  have hkeys : KeysUnique market := by decide
  have hlist : listOfListed ∈ market.flatMap (·.methods) := by decide
  have hprice : priceOfPriced ∈ market.flatMap (·.methods) := by decide
  have hstall : stall ∈ market := List.mem_cons_self
  have hshop : shop ∈ market := by simp [market]
  have hvisits : ∀ m t, Inquiry.ask m t ∈ visits →
      m ∈ market.flatMap (·.methods) ∧ t ∈ market := by
    intro m t hmem
    simp only [visits, List.mem_cons, Inquiry.ask.injEq, reduceCtorEq, List.not_mem_nil, or_false,
      false_or] at hmem
    rcases hmem with ⟨rfl, rfl⟩ | ⟨rfl, rfl⟩ | ⟨rfl, rfl⟩ | ⟨rfl, rfl⟩
    exacts [⟨hprice, hshop⟩, ⟨hlist, hstall⟩, ⟨hprice, hstall⟩, ⟨hlist, hstall⟩]
  obtain ⟨hanswer, hlength⟩ := ask_candidates market_hierarchy hkeys
    (fun _ _ => listings.provider_keyed) true hvisits hlist hstall
  exact ⟨market_hierarchy, hkeys, hanswer.trans (by decide), hlength.trans (by decide)⟩

end TypeDecl

end CachedCalls
