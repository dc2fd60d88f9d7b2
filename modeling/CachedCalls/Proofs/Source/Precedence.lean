import CachedCalls.Proofs.Association
import CachedCalls.Proofs.Source.Fitting
import CachedCalls.Source.Basic

set_option autoImplicit false

namespace CachedCalls

namespace Pattern

theorem before_iff {p q : String} : before p q = true ↔
    q.utf8ByteSize < p.utf8ByteSize ∨ (p.utf8ByteSize = q.utf8ByteSize ∧ p < q) := by
  simp [before]

theorem before_trans {p q r : String} (hpq : before p q = true) (hqr : before q r = true) :
    before p r = true := by
  obtain hpq | ⟨hpq, hlt⟩ := before_iff.1 hpq <;> obtain hqr | ⟨hqr, hlt'⟩ := before_iff.1 hqr
  · exact before_iff.2 (.inl (Nat.lt_trans hqr hpq))
  · exact before_iff.2 (.inl (hqr ▸ hpq))
  · exact before_iff.2 (.inl (hpq ▸ hqr))
  · exact before_iff.2 (.inr ⟨hpq.trans hqr, String.lt_trans hlt hlt'⟩)

theorem before_irrefl (p : String) : ¬ before p p = true := by
  intro h
  obtain h | ⟨-, h⟩ := before_iff.1 h
  · exact Nat.lt_irrefl _ h
  · exact String.lt_irrefl p h

theorem before_total {p q : String} (h : p ≠ q) : before p q = true ∨ before q p = true := by
  simp only [before_iff]
  obtain hlt | heq | hgt := Nat.lt_trichotomy p.utf8ByteSize q.utf8ByteSize
  · exact .inr (.inl hlt)
  · by_cases hpq : p < q
    · exact .inl (.inr ⟨heq, hpq⟩)
    · have hqp : q < p := Decidable.byContradiction fun hqp =>
        h (String.le_antisymm (String.not_lt.1 hqp) (String.not_lt.1 hpq))
      exact .inr (.inr ⟨heq.symm, hqp⟩)
  · exact .inl (.inl hgt)

end Pattern

namespace Patterns

open CachedCalls.Pattern

def register (ps : Patterns) (e : String × List Draft) : Patterns :=
  match ps.add e.1 e.2 with
  | .ok ps => ps
  | .error _ => ps

def ofRegistrations (es : List (String × List Draft)) : Patterns := es.foldl register []

def given? (e : String × List Draft) (p : String) : Option (List Operation) :=
  if p = e.1 then (Draft.buildAll e.1 {} e.2).toOption else none

/-- The operations that a pattern was registered with last, of the times that they could be built. -/
def registered : List (String × List Draft) → String → Option (List Operation)
  | [], _ => none
  | e :: es, p => (registered es p).or (given? e p)

section Names

variable {ps : Patterns} {e : String × List Draft}

theorem register_cases (ps : Patterns) (e : String × List Draft) :
    (∃ os, (Draft.buildAll e.1 {} e.2).toOption = some os ∧
        register ps e = (e.1, os) :: List.filter (fun x => decide (x.1 ≠ e.1)) ps) ∨
      (Draft.buildAll e.1 {} e.2).toOption = none ∧ register ps e = ps := by
  unfold register add
  cases Draft.buildAll e.1 {} e.2 with
  | ok os => exact .inl ⟨os, rfl, rfl⟩
  | error f => exact .inr ⟨rfl, rfl⟩

theorem lookup_others {p q : String} (h : q ≠ p) :
    List.lookup q (List.filter (fun x => decide (x.1 ≠ p)) ps) = ps.lookup q := by
  induction ps with
  | nil => rfl
  | cons x ps ih =>
    rw [lookup_cons_if, ← ih]
    by_cases hx : x.1 = p
    · rw [List.filter_cons_of_neg (by simpa using hx), if_neg fun hq => h (hq.trans hx)]
    · rw [List.filter_cons_of_pos (by simpa using hx), lookup_cons_if]

theorem lookup_register (p : String) :
    (register ps e).lookup p = (given? e p).or (ps.lookup p) := by
  unfold given?
  obtain ⟨os, hos, h⟩ | ⟨hos, h⟩ := register_cases ps e <;> rw [h, hos]
  · rw [lookup_cons_if]
    by_cases hp : p = e.1
    · rw [if_pos hp, if_pos hp, Option.some_or]
    · rw [if_neg hp, if_neg hp, Option.none_or, lookup_others hp]
  · rw [ite_self, Option.none_or]

theorem register_nodup (h : (ps.map (·.1)).Nodup) : ((register ps e).map (·.1)).Nodup := by
  obtain ⟨os, -, hreg⟩ | ⟨-, hreg⟩ := register_cases ps e <;> rw [hreg]
  · refine List.nodup_cons.2 ⟨fun hmem => ?_, h.sublist (List.filter_sublist.map _)⟩
    obtain ⟨x, hx, hxe⟩ := List.mem_map.1 hmem
    exact of_decide_eq_true (List.mem_filter.1 hx).2 hxe
  · exact h

theorem lookup_foldl_register (es : List (String × List Draft)) (p : String) :
    (es.foldl register ps).lookup p = (registered es p).or (ps.lookup p) := by
  induction es generalizing ps with
  | nil => rfl
  | cons e es ih => rw [List.foldl_cons, ih, lookup_register, registered, Option.or_assoc]

theorem foldl_register_nodup (es : List (String × List Draft)) (h : (ps.map (·.1)).Nodup) :
    ((es.foldl register ps).map (·.1)).Nodup := by
  induction es generalizing ps with
  | nil => exact h
  | cons e es ih => exact ih (register_nodup h)

end Names

structure Tabled (ps : Patterns) (reg : String → Option (List Operation)) : Prop where
  lookup : ∀ p, ps.lookup p = reg p
  mem : ∀ x ∈ ps, reg x.1 = some x.2

theorem tabled {es : List (String × List Draft)} {ps : Patterns}
    (h : ps.Perm (ofRegistrations es)) : Tabled ps (registered es) := by
  have hnodup : ((ofRegistrations es).map (·.1)).Nodup := foldl_register_nodup es List.nodup_nil
  have hlookup : ∀ p, ps.lookup p = registered es p := fun p => by
    rw [lookup_perm h hnodup, ofRegistrations, lookup_foldl_register, List.lookup_nil,
      Option.or_none]
  exact ⟨hlookup, fun x hx => hlookup x.1 ▸ lookup_of_mem ((h.map _).nodup_iff.2 hnodup) hx⟩

theorem registered_perm {ds es : List (String × List Draft)} (h : ds.Perm es)
    (hes : (es.map (·.1)).Nodup) (p : String) : registered ds p = registered es p := by
  have hlookup : ∀ {es : List (String × List Draft)}, (es.map (·.1)).Nodup →
      registered es p = (es.lookup p).bind fun ops => (Draft.buildAll p {} ops).toOption := by
    intro es hes
    induction es with
    | nil => rfl
    | cons e es ih =>
      obtain ⟨he, hes⟩ := List.nodup_cons.1 hes
      rw [registered, ih hes, lookup_cons_if, given?]
      by_cases hp : p = e.1
      · have hnone : es.lookup p = none := by
          refine List.lookup_eq_none_iff.2 fun x hx => bne_iff_ne.2 fun hpx => he ?_
          exact List.mem_map.2 ⟨x, hx, hpx.symm.trans hp⟩
        rw [if_pos hp, if_pos hp, hnone, Option.bind_none, Option.none_or, Option.bind_some, hp]
      · rw [if_neg hp, if_neg hp, Option.or_none]
  rw [hlookup ((h.map _).nodup_iff.2 hes), hlookup hes, lookup_perm h hes]

theorem prefer_some (b e : String × List Operation) :
    prefer (some b) e = some (if before e.1 b.1 then e else b) := by
  by_cases h : before e.1 b.1 = true <;> simp [prefer, h]

theorem foldl_prefer (es : List (String × List Operation)) (b : String × List Operation) :
    ∃ w ∈ b :: es, es.foldl prefer (some b) = some w ∧
      ∀ e ∈ b :: es, ¬ before e.1 w.1 = true := by
  induction es generalizing b with
  | nil =>
    refine ⟨b, List.mem_cons_self, rfl, fun e he => ?_⟩
    rw [List.mem_singleton.1 he]
    exact before_irrefl b.1
  | cons e es ih =>
    rw [List.foldl_cons, prefer_some]
    by_cases heb : before e.1 b.1 = true
    · rw [if_pos heb]
      obtain ⟨w, hw, hfold, hfirst⟩ := ih e
      refine ⟨w, List.mem_cons_of_mem b hw, hfold, fun x hx => ?_⟩
      obtain rfl | hx := List.mem_cons.1 hx
      · exact fun hxw => hfirst e List.mem_cons_self (before_trans heb hxw)
      · exact hfirst x hx
    · rw [if_neg heb]
      obtain ⟨w, hw, hfold, hfirst⟩ := ih b
      have hbw : ¬ before b.1 w.1 = true := hfirst b List.mem_cons_self
      -- The one left behind cannot come before `w`, as `w` is not after the one that was kept.
      have hew : ¬ before e.1 w.1 = true := fun hew => by
        by_cases hwb : w.1 = b.1
        · exact heb (hwb ▸ hew)
        · obtain hwb | hwb := before_total hwb
          · exact heb (before_trans hew hwb)
          · exact hbw hwb
      refine ⟨w, ?_, hfold, fun x hx => ?_⟩
      · obtain rfl | hw := List.mem_cons.1 hw
        · exact List.mem_cons_self
        · exact List.mem_cons_of_mem b (List.mem_cons_of_mem e hw)
      · obtain rfl | hx := List.mem_cons.1 hx
        · exact hbw
        · obtain rfl | hx := List.mem_cons.1 hx
          · exact hew
          · exact hfirst x (List.mem_cons_of_mem b hx)

/-- The pattern is registered and fits the name; of all such patterns it has the most bytes and,
    among those with as many, the smallest text. -/
structure Foremost (reg : String → Option (List Operation)) (n p : String) : Prop where
  registered : (reg p).isSome = true
  fits : Matches p n
  first : ∀ q, (reg q).isSome = true → Matches q n → q ≠ p →
    q.utf8ByteSize < p.utf8ByteSize ∨ (q.utf8ByteSize = p.utf8ByteSize ∧ p < q)

inductive Answered (reg : String → Option (List Operation)) (n : String) : List Operation → Prop where
  | named {os : List Operation} : reg n = some os → Answered reg n os
  | foremost {p : String} {os : List Operation} : reg n = none → Foremost reg n p →
      reg p = some os → Answered reg n os
  | nothing : reg n = none → (∀ p, (reg p).isSome = true → ¬ Matches p n) → Answered reg n []

section Answers

variable {ps : Patterns} {reg : String → Option (List Operation)} {n : String}

theorem Foremost.unique {p q : String} (hp : Foremost reg n p) (hq : Foremost reg n q) : p = q := by
  refine Decidable.byContradiction fun hpq => ?_
  have hbefore : before p q = true := before_iff.2
    ((hp.first q hq.registered hq.fits (Ne.symm hpq)).imp_right fun h => ⟨h.1.symm, h.2⟩)
  have hafter : before q p = true := before_iff.2
    ((hq.first p hp.registered hp.fits hpq).imp_right fun h => ⟨h.1.symm, h.2⟩)
  exact before_irrefl p (before_trans hbefore hafter)

theorem Answered.unique {os ls : List Operation} (h : Answered reg n os) (h' : Answered reg n ls) :
    os = ls := by
  cases h with
  | named hos =>
    cases h' with
    | named hls => exact Option.some.inj (hos.symm.trans hls)
    | foremost hn => cases hos.symm.trans hn
    | nothing hn => cases hos.symm.trans hn
  | foremost hn hp hos =>
    cases h' with
    | named hls => cases hls.symm.trans hn
    | foremost _ hq hls =>
      rw [hp.unique hq] at hos
      exact Option.some.inj (hos.symm.trans hls)
    | nothing _ hnone => exact absurd hp.fits (hnone _ hp.registered)
  | nothing hn hnone =>
    cases h' with
    | named hls => cases hls.symm.trans hn
    | foremost _ hq => exact absurd hq.fits (hnone _ hq.registered)
    | nothing => rfl

theorem Tabled.mem_iff (h : Tabled ps reg) {x : String × List Operation} :
    x ∈ ps ↔ reg x.1 = some x.2 :=
  ⟨h.mem x, fun hx => mem_of_lookup ((h.lookup x.1).trans hx)⟩

theorem Tabled.mem_candidates (h : Tabled ps reg) {x : String × List Operation} :
    x ∈ List.filter (fun e => fits e.1 n) ps ↔ reg x.1 = some x.2 ∧ Matches x.1 n := by
  rw [List.mem_filter, h.mem_iff, fits_iff_matches]

theorem Tabled.answered (h : Tabled ps reg) (n : String) : Answered reg n (ps.ask n) := by
  unfold ask
  rw [h.lookup]
  cases hn : reg n with
  | some os => exact .named hn
  | none =>
    have hmem := fun x => h.mem_candidates (x := x) (n := n)
    cases hes : List.filter (fun e => fits e.1 n) ps with
    | nil =>
      refine .nothing hn fun p hp hfits => ?_
      obtain ⟨os, hos⟩ := Option.isSome_iff_exists.1 hp
      rw [hes] at hmem
      cases (hmem (p, os)).2 ⟨hos, hfits⟩
    | cons e es =>
      rw [hes] at hmem
      obtain ⟨w, hw, hfold, hfirst⟩ := foldl_prefer es e
      obtain ⟨hreg, hfits⟩ := (hmem w).1 hw
      have hforemost : Foremost reg n w.1 := by
        refine ⟨Option.isSome_of_eq_some hreg, hfits, fun q hq hqn hne => ?_⟩
        obtain ⟨os, hos⟩ := Option.isSome_iff_exists.1 hq
        have hnot : ¬ before q w.1 = true := hfirst (q, os) ((hmem (q, os)).2 ⟨hos, hqn⟩)
        obtain hqw | hqw := before_total hne
        · exact absurd hqw hnot
        · exact (before_iff.1 hqw).imp_right fun h => ⟨h.1.symm, h.2⟩
      have hfold : (e :: es).foldl prefer none = some w := hfold
      rw [hfold]
      exact .foremost hn hforemost hreg

end Answers

/-- Of the patterns registered in any order and gone through in any order, a name is answered with
    the operations of the one that is the name itself, else of the longest that fits it, of those of
    one length the smallest, and else with none. -/
theorem answered_iff {es : List (String × List Draft)} {reg : String → Option (List Operation)}
    (hreg : ∀ p, registered es p = reg p) {ps : Patterns} (hps : ps.Perm (ofRegistrations es))
    (m : Method) (t : TypeDecl) (os : List Operation) :
    (Source.patterns ps).ask m t = (os, .patterns ps) ↔ Answered reg m.name os := by
  have htabled : Tabled ps reg := (funext hreg : registered es = reg) ▸ tabled hps
  have hanswered : Answered reg m.name (ps.ask m.name) := htabled.answered m.name
  constructor
  · intro h
    have hos : ps.ask m.name = os := congrArg Prod.fst h
    exact hos ▸ hanswered
  · intro h
    exact congrArg (·, Source.patterns ps) (hanswered.unique h)

def readers : List (String × List Draft) :=
  [("getUser*", [Draft.cacheable.set (.cacheNames ["users"])]),
    ("get*", [Draft.cacheable.set (.cacheNames ["all"])]),
    ("get*User", [Draft.cacheable.set (.cacheNames ["user"])])]

theorem answered_iff_readers :
    (∀ p, registered readers.reverse p = registered readers p) ∧
      (ofRegistrations readers.reverse).reverse.Perm (ofRegistrations readers.reverse) ∧
      Answered (registered readers) "getUserOfUser"
        [⟨"get*User", ["user"], none, none, none, none, none, .cacheable none false⟩] := by
  have hreg := registered_perm (List.reverse_perm readers) (by decide)
  have hps := List.reverse_perm (ofRegistrations readers.reverse)
  have hask : ask (ofRegistrations readers.reverse).reverse "getUserOfUser" =
      [⟨"get*User", ["user"], none, none, none, none, none, .cacheable none false⟩] := by
    decide +kernel
  exact ⟨hreg, hps, (answered_iff hreg hps
    ⟨"Shop", "getUserOfUser", [], .anyone, false, false⟩ .object _).1 (congrArg (·, _) hask)⟩

end Patterns

end CachedCalls
