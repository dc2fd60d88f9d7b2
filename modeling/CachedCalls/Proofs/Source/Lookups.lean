import CachedCalls.Source.Fallback

/-!
Lookups at one source, each at any point of its way, with declarations and clears between their
steps. A lookup keeps its answer some time after it has computed it, so one that is in flight while
the source is cleared can bring back what was declared before (`stale_answer`). What a later lookup
answers never comes from anywhere else (`answer_from`).
-/

set_option autoImplicit false

namespace CachedCalls

namespace Fallback

def compute (f : Fallback) (m : Method) (t : TypeDecl) : List Operation :=
  f.declared.provider.search f.publicOnly m t

def keep (f : Fallback) (e : Element) (os : List Operation) : Fallback :=
  { f with memo := (e, os) :: f.memo.filter fun x => decide (x.1 ≠ e) }

theorem keep_of_none {f : Fallback} {e : Element} (h : f.memo.lookup e = none)
    (os : List Operation) : f.keep e os = { f with memo := (e, os) :: f.memo } := by
  have hself : (f.memo.filter fun x => decide (x.1 ≠ e)) = f.memo := by
    rw [List.filter_eq_self]
    intro x hx
    have hne := List.lookup_eq_none_iff.1 h x hx
    exact decide_eq_true fun he => bne_iff_ne.1 hne he.symm
  rw [keep, hself]

theorem mem_memo_of_lookup {f : Fallback} {e : Element} {os : List Operation}
    (h : f.memo.lookup e = some os) : (e, os) ∈ f.memo := by
  obtain ⟨l₁, l₂, hl, -⟩ := List.lookup_eq_some_iff.1 h
  rw [hl]
  simp

end Fallback

inductive Lookup.Stage where
  | start
  | missed
  | found (os : List Operation)
  | done (os : List Operation)

structure Lookup where
  method : Method
  target : TypeDecl
  stage : Lookup.Stage := .start

namespace Lookup

def element (l : Lookup) : Element := l.method.element l.target

/-- One step: to look into the memo, to compute, and to keep what was computed. -/
def advance (l : Lookup) (f : Fallback) : Option (Stage × Fallback) :=
  match l.stage with
  | .start =>
    match f.memo.lookup l.element with
    | some os => some (.done os, f)
    | none => some (.missed, f)
  | .missed => some (.found (f.compute l.method l.target), f)
  | .found os => some (.done os, f.keep l.element os)
  | .done _ => none

def alone (l : Lookup) (f : Fallback) : Nat → Stage × Fallback
  | 0 => (l.stage, f)
  | n + 1 =>
    match l.advance f with
    | some (s, f) => alone { l with stage := s } f n
    | none => (l.stage, f)

theorem alone_eq_ask (f : Fallback) (m : Method) (t : TypeDecl) :
    alone ⟨m, t, .start⟩ f 3 = (.done (f.ask m t).1, (f.ask m t).2) := by
  unfold Fallback.ask Provider.ask
  cases h : f.memo.lookup (m.element t) with
  | some os => simp [alone, advance, element, h]
  | none => simp [alone, advance, element, h, Fallback.keep_of_none h, Fallback.compute]

end Lookup

structure Lookups where
  source : Fallback
  lookups : List Lookup

namespace Lookups

def step? (s : Lookups) (me : Nat) : Option Lookups := do
  let l ← s.lookups[me]?
  let (stage, source) ← l.advance s.source
  some ⟨source, s.lookups.set me { l with stage }⟩

def clear (s : Lookups) : Lookups := { s with source := s.source.clear }

inductive Quiet (s : Lookups) : Lookups → Prop where
  | step {s' : Lookups} (me : Nat) : s.step? me = some s' → Quiet s s'
  | join (m : Method) (t : TypeDecl) : Quiet s { s with lookups := s.lookups ++ [⟨m, t, .start⟩] }
  | clear : Quiet s s.clear

inductive Reachable : Lookups → Prop where
  | start (publicOnly : Bool) : Reachable ⟨{ publicOnly }, []⟩
  | quiet {s s' : Lookups} : Reachable s → Quiet s s' → Reachable s'
  | declare {s : Lookups} (d : Declaration) {new : Declared} : Reachable s →
      s.source.declared.declare d = .ok new →
      Reachable { s with source := { s.source with declared := new } }

/-- What comes of clearing the source, as long as nothing is declared. -/
inductive Since (s : Lookups) : Lookups → Prop where
  | clear : Since s s.clear
  | next {s₁ s₂ : Lookups} : Since s s₁ → Quiet s₁ s₂ → Since s s₂

theorem step?_cases {s s' : Lookups} {me : Nat} (h : s.step? me = some s') :
    ∃ l stage source, s.lookups[me]? = some l ∧ l.advance s.source = some (stage, source) ∧
      s' = ⟨source, s.lookups.set me { l with stage }⟩ := by
  obtain ⟨l, hl, h⟩ := Option.bind_eq_some_iff.1 h
  obtain ⟨⟨stage, source⟩, hs, h⟩ := Option.bind_eq_some_iff.1 h
  exact ⟨l, stage, source, hl, hs, (Option.some.inj h).symm⟩

/-- Where an answer for an element can come from: it is computed for a lookup of the element, or a
    lookup had found it when the source was cleared. -/
def From (s₀ s : Lookups) (e : Element) (os : List Operation) : Prop :=
  (∃ l ∈ s.lookups, l.element = e ∧ os = s₀.source.compute l.method l.target) ∨
    ∃ l ∈ s₀.lookups, l.element = e ∧ l.stage = .found os

structure Traced (s₀ s : Lookups) : Prop where
  declared : s.source.declared = s₀.source.declared
  publicOnly : s.source.publicOnly = s₀.source.publicOnly
  old : s₀.lookups.length ≤ s.lookups.length
  memo : ∀ x ∈ s.source.memo, From s₀ s x.1 x.2
  found : ∀ l ∈ s.lookups, ∀ os, l.stage = .found os → From s₀ s l.element os
  done : ∀ i l os, s₀.lookups.length ≤ i → s.lookups[i]? = some l → l.stage = .done os →
    From s₀ s l.element os

namespace Traced

variable {s₀ s : Lookups} (ht : Traced s₀ s)

include ht

theorem compute_eq (m : Method) (t : TypeDecl) :
    s.source.compute m t = s₀.source.compute m t := by
  rw [Fallback.compute, Fallback.compute, ht.declared, ht.publicOnly]

theorem clear : Traced s₀ s.clear :=
  ⟨ht.declared, ht.publicOnly, ht.old, fun _ hx => (nomatch hx), ht.found, ht.done⟩

theorem join (m : Method) (t : TypeDecl) :
    Traced s₀ { s with lookups := s.lookups ++ [⟨m, t, .start⟩] } := by
  have hmono {e : Element} {os : List Operation} (h : From s₀ s e os) :
      From s₀ { s with lookups := s.lookups ++ [⟨m, t, .start⟩] } e os := by
    rcases h with ⟨l, hl, h⟩ | h
    · exact .inl ⟨l, List.mem_append_left _ hl, h⟩
    · exact .inr h
  refine ⟨ht.declared, ht.publicOnly, ?_, fun x hx => hmono (ht.memo x hx),
    fun l hl os hs => ?_, fun i l os hi hl hs => ?_⟩
  · rw [List.length_append]
    exact Nat.le_add_right_of_le ht.old
  · rcases List.mem_append.1 hl with hl | hl
    · exact hmono (ht.found l hl os hs)
    · rw [List.mem_singleton.1 hl] at hs
      cases hs
  · have hl : (s.lookups ++ [⟨m, t, .start⟩])[i]? = some l := hl
    by_cases hlt : i < s.lookups.length
    · rw [List.getElem?_append_left hlt] at hl
      exact hmono (ht.done i l os hi hl hs)
    · rw [List.getElem?_append_right (Nat.le_of_not_lt hlt)] at hl
      have hmem := List.mem_of_getElem? hl
      rw [List.mem_singleton.1 hmem] at hs
      cases hs

theorem move {me : Nat} {l : Lookup} (hl : s.lookups[me]? = some l) {stage : Lookup.Stage}
    {source : Fallback} (hd : source.declared = s.source.declared)
    (hp : source.publicOnly = s.source.publicOnly)
    (hmemo : ∀ x ∈ source.memo, From s₀ s x.1 x.2)
    (hfound : ∀ os, stage = .found os → From s₀ s l.element os)
    (hdone : ∀ os, stage = .done os → From s₀ s l.element os) :
    Traced s₀ ⟨source, s.lookups.set me { l with stage }⟩ := by
  have hlt := (List.getElem?_eq_some_iff.1 hl).1
  have hplace (i : Nat) : (s.lookups.set me { l with stage })[i]? =
      if me = i then some { l with stage } else s.lookups[i]? := by
    rw [List.getElem?_set]
    by_cases hi : me = i
    · rw [if_pos hi, if_pos hi, if_pos hlt]
    · rw [if_neg hi, if_neg hi]
  -- A lookup keeps its method and its target.
  have hmono {e : Element} {os : List Operation} (h : From s₀ s e os) :
      From s₀ ⟨source, s.lookups.set me { l with stage }⟩ e os := by
    rcases h with ⟨b, hb, h⟩ | h
    · obtain ⟨i, hi⟩ := List.mem_iff_getElem?.1 hb
      by_cases hme : me = i
      · subst hme
        rw [hl] at hi
        cases hi
        exact .inl ⟨{ l with stage }, List.mem_of_getElem? ((hplace me).trans (if_pos rfl)), h⟩
      · exact .inl ⟨b, List.mem_of_getElem? ((hplace i).trans ((if_neg hme).trans hi)), h⟩
    · exact .inr h
  refine ⟨hd.trans ht.declared, hp.trans ht.publicOnly, ?_, fun x hx => hmono (hmemo x hx),
    fun b hb os hs => ?_, fun i b os hi hb hs => ?_⟩
  · change s₀.lookups.length ≤ (s.lookups.set me { l with stage }).length
    rw [List.length_set]
    exact ht.old
  · rcases List.mem_or_eq_of_mem_set hb with hb | rfl
    · exact hmono (ht.found b hb os hs)
    · exact hmono (hfound os hs)
  · have hb : (s.lookups.set me { l with stage })[i]? = some b := hb
    rw [hplace] at hb
    by_cases hme : me = i
    · rw [if_pos hme] at hb
      cases hb
      exact hmono (hdone os hs)
    · rw [if_neg hme] at hb
      exact hmono (ht.done i b os hi hb hs)

theorem step {s' : Lookups} {me : Nat} (h : s.step? me = some s') : Traced s₀ s' := by
  obtain ⟨l, stage, source, hl, hadv, rfl⟩ := step?_cases h
  have hmem := List.mem_of_getElem? hl
  unfold Lookup.advance at hadv
  cases hs : l.stage with
  | start =>
    rw [hs] at hadv
    cases hm : s.source.memo.lookup l.element with
    | some os =>
      simp only [hm] at hadv
      cases hadv
      refine ht.move hl rfl rfl ht.memo (fun _ h => nomatch h) fun os' h => ?_
      cases h
      exact ht.memo _ (Fallback.mem_memo_of_lookup hm)
    | none =>
      simp only [hm] at hadv
      cases hadv
      exact ht.move hl rfl rfl ht.memo (fun _ h => nomatch h) fun _ h => nomatch h
  | missed =>
    rw [hs] at hadv
    cases hadv
    refine ht.move hl rfl rfl ht.memo (fun os h => ?_) fun _ h => nomatch h
    cases h
    exact .inl ⟨l, hmem, rfl, ht.compute_eq l.method l.target⟩
  | found os =>
    rw [hs] at hadv
    cases hadv
    have hfrom := ht.found l hmem os hs
    refine ht.move hl rfl rfl (fun x hx => ?_) (fun _ h => nomatch h) fun os' h => ?_
    · rcases List.mem_cons.1 hx with rfl | hx
      · exact hfrom
      · exact ht.memo x (List.mem_filter.1 hx).1
    · cases h
      exact hfrom
  | done os =>
    rw [hs] at hadv
    cases hadv

end Traced

theorem Since.traced {s₀ s : Lookups} (h : Since s₀ s) : Traced s₀ s := by
  induction h with
  | clear =>
    refine ⟨rfl, rfl, Nat.le_refl _, fun _ hx => (nomatch hx), fun l hl os hs => ?_,
      fun i l os hi hl hs => ?_⟩
    · exact .inr ⟨l, hl, rfl, hs⟩
    · exact absurd (List.getElem?_eq_some_iff.1 hl).1 (Nat.not_lt.2 hi)
  | next _ hq ih =>
    cases hq with
    | step me hs => exact ih.step hs
    | join m t => exact ih.join m t
    | clear => exact ih.clear

theorem answer_from {s₀ s : Lookups} (h : Since s₀ s) {i : Nat} {l : Lookup}
    {os : List Operation} (hi : s₀.lookups.length ≤ i) (hl : s.lookups[i]? = some l)
    (hs : l.stage = .done os) :
    (∃ b ∈ s.lookups, b.element = l.element ∧ os = s.source.compute b.method b.target) ∨
      ∃ b ∈ s₀.lookups, b.element = l.element ∧ b.stage = .found os := by
  have ht := h.traced
  rcases ht.done i l os hi hl hs with ⟨b, hb, he, hos⟩ | hold
  · exact .inl ⟨b, hb, he, hos.trans (ht.compute_eq b.method b.target).symm⟩
  · exact .inr hold

def steps? (s : Lookups) : List Nat → Option Lookups
  | [] => some s
  | me :: ms => (s.step? me).bind (·.steps? ms)

theorem Reachable.steps {s s' : Lookups} (h : Reachable s) {l : List Nat}
    (hs : s.steps? l = some s') : Reachable s' := by
  induction l generalizing s with
  | nil =>
    cases hs
    exact h
  | cons me ms ih =>
    obtain ⟨s₁, h₁, hrest⟩ := Option.bind_eq_some_iff.1 hs
    exact ih (h.quiet (.step me h₁)) hrest

theorem Since.steps {s₀ s s' : Lookups} (h : Since s₀ s) {l : List Nat}
    (hs : s.steps? l = some s') : Since s₀ s' := by
  induction l generalizing s with
  | nil =>
    cases hs
    exact h
  | cons me ms ih =>
    obtain ⟨s₁, h₁, hrest⟩ := Option.bind_eq_some_iff.1 hs
    exact ih (h.next (.step me h₁)) hrest

def stall : TypeDecl := .ofClass "Stall" none [] [{ name := "price" }]

def stallPrice : Method := MethodDraft.on { name := "price" } "Stall"

def readStall : Draft := Draft.cacheable.set (.cacheNames ["prices"])

def stallOperation : Operation :=
  ⟨"Stall.price()", ["prices"], none, none, none, none, none, .cacheable none false⟩

def stallDeclared : Declared := { methods := [(stallPrice.key, [stallOperation])] }

theorem declare_readStall :
    ({} : Declared).declare (.method stallPrice [readStall]) = .ok stallDeclared :=
  rfl

/-- The first lookup has found nothing when the method is declared on. It keeps that after the
    source was cleared, and so the second lookup finds nothing either. -/
theorem stale_answer : ∃ (s₀ s : Lookups) (l : Lookup) (os : List Operation), Reachable s₀ ∧
    Since s₀ s ∧ s.lookups[s₀.lookups.length]? = some l ∧ l.stage = .done os ∧
    os ≠ s.source.compute l.method l.target := by
  have hfirst : Reachable ⟨{}, [⟨stallPrice, stall, .start⟩]⟩ :=
    (Reachable.start true).quiet (.join stallPrice stall)
  have hfound : Lookups.steps? ⟨{}, [⟨stallPrice, stall, .start⟩]⟩ [0, 0] =
      some ⟨{}, [⟨stallPrice, stall, .found []⟩]⟩ := rfl
  have hdeclared := (hfirst.steps hfound).declare (.method stallPrice [readStall]) declare_readStall
  have hjoin := Since.clear.next (s := ⟨{ declared := stallDeclared },
    [⟨stallPrice, stall, .found []⟩]⟩) (.join stallPrice stall)
  have hend : Lookups.steps? ⟨{ declared := stallDeclared },
      [⟨stallPrice, stall, .found []⟩, ⟨stallPrice, stall, .start⟩]⟩ [0, 1] =
      some ⟨{ declared := stallDeclared, memo := [(stallPrice.element stall, [])] },
        [⟨stallPrice, stall, .done []⟩, ⟨stallPrice, stall, .done []⟩]⟩ := rfl
  have hcompute : Fallback.compute
      { declared := stallDeclared, memo := [(stallPrice.element stall, [])] } stallPrice stall =
      [stallOperation] := rfl
  refine ⟨_, _, _, _, hdeclared, hjoin.steps hend, rfl, rfl, ?_⟩
  rw [hcompute]
  rintro ⟨⟩

def stallSecret : Method := MethodDraft.on { name := "price", visibility := .owner } "Stall"

/-- Two methods with one name on types of one name share their answer, though a public one and a
    private one have different operations. -/
theorem answer_of_namesake : ∃ (s₀ s : Lookups) (l : Lookup) (os : List Operation),
    Reachable s₀ ∧ s₀.lookups = [] ∧ Since s₀ s ∧ s.lookups[1]? = some l ∧ l.stage = .done os ∧
    os ≠ s.source.compute l.method l.target := by
  have hdeclared := (Reachable.start true).declare (.method stallPrice [readStall])
    declare_readStall
  have hjoin := (Since.clear.next (s := ⟨{ declared := stallDeclared }, []⟩)
    (.join stallPrice stall)).next (.join stallSecret stall)
  have hend : Lookups.steps? ⟨{ declared := stallDeclared },
      [⟨stallPrice, stall, .start⟩, ⟨stallSecret, stall, .start⟩]⟩ [0, 0, 0, 1] =
      some ⟨{ declared := stallDeclared, memo := [(stallPrice.element stall, [stallOperation])] },
        [⟨stallPrice, stall, .done [stallOperation]⟩,
          ⟨stallSecret, stall, .done [stallOperation]⟩]⟩ := rfl
  have hcompute : Fallback.compute
      { declared := stallDeclared, memo := [(stallPrice.element stall, [stallOperation])] }
      stallSecret stall = [] := rfl
  refine ⟨_, _, _, _, hdeclared, rfl, hjoin.steps hend, rfl, rfl, ?_⟩
  rw [hcompute]
  rintro ⟨⟩

/-- A lookup that comes after the source was cleared answers what is declared, unless another lookup
    of its element is about another method or target, or had found something else by then. -/
theorem answer_current {s₀ s : Lookups} (h : Since s₀ s) {i : Nat} {l : Lookup}
    {os : List Operation} (hi : s₀.lookups.length ≤ i) (hl : s.lookups[i]? = some l)
    (hs : l.stage = .done os)
    (hsame : ∀ b ∈ s.lookups, b.element = l.element → b.method = l.method ∧ b.target = l.target)
    (hlate : ∀ b ∈ s₀.lookups, b.element = l.element → ∀ found, b.stage = .found found →
      found = s₀.source.compute l.method l.target) :
    os = s.source.compute l.method l.target := by
  rcases answer_from h hi hl hs with ⟨b, hb, he, hos⟩ | ⟨b, hb, he, hfound⟩
  · obtain ⟨hm, ht⟩ := hsame b hb he
    rw [hos, hm, ht]
  · rw [hlate b hb he os hfound]
    exact (h.traced.compute_eq l.method l.target).symm

theorem answer_current_stall : ∃ (s₀ s : Lookups) (l : Lookup), Reachable s₀ ∧ Since s₀ s ∧
    s.lookups[s₀.lookups.length]? = some l ∧ l.stage = .done [stallOperation] ∧
    [stallOperation] = s.source.compute l.method l.target := by
  have hdeclared := (Reachable.start true).declare (.method stallPrice [readStall])
    declare_readStall
  have hfirst := hdeclared.quiet (.join stallPrice stall)
  have hfound : Lookups.steps? ⟨{ declared := stallDeclared }, [⟨stallPrice, stall, .start⟩]⟩
      [0, 0] = some ⟨{ declared := stallDeclared },
        [⟨stallPrice, stall, .found [stallOperation]⟩]⟩ := rfl
  have hjoin := Since.clear.next (s := ⟨{ declared := stallDeclared },
    [⟨stallPrice, stall, .found [stallOperation]⟩]⟩) (.join stallPrice stall)
  have hend : Lookups.steps? ⟨{ declared := stallDeclared },
      [⟨stallPrice, stall, .found [stallOperation]⟩, ⟨stallPrice, stall, .start⟩]⟩ [0, 1] =
      some ⟨{ declared := stallDeclared, memo := [(stallPrice.element stall, [stallOperation])] },
        [⟨stallPrice, stall, .done [stallOperation]⟩,
          ⟨stallPrice, stall, .done [stallOperation]⟩]⟩ := rfl
  refine ⟨_, _, _, hfirst.steps hfound, hjoin.steps hend, rfl, rfl,
    answer_current (hjoin.steps hend) (Nat.le_refl 1) rfl rfl (fun b hb _ => ?_)
      fun b hb _ found hf => ?_⟩
  · simp only [List.mem_cons, List.not_mem_nil, or_false, or_self] at hb
    rw [hb]
    exact ⟨rfl, rfl⟩
  · rw [List.mem_singleton.1 hb] at hf
    cases hf
    rfl

end Lookups

end CachedCalls
