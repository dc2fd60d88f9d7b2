import CachedCalls.Proofs.Association
import CachedCalls.Proofs.Operation.Inheritance
import CachedCalls.Proofs.Operation.LastSetting
import CachedCalls.Source.Declared
import Mathlib.Data.List.Forall2

set_option autoImplicit false

namespace CachedCalls

inductive Place where
  | method (k : MethodKey)
  | type (t : String)
  deriving DecidableEq

namespace Declaration

def place? : Declaration → Option Place
  | defaults _ _ => none
  | type t _ => some (.type t)
  | method m _ => some (.method m.key)

def owner : Declaration → String
  | defaults t _ => t
  | type t _ => t
  | method m _ => m.declaringType

def element : Declaration → String
  | defaults t _ => t
  | type t _ => t
  | method m _ => m.text

def drafts : Declaration → List Draft
  | defaults _ _ => []
  | type _ ops => ops
  | method _ ops => ops

def provides? (t : String) : Declaration → Option Defaults
  | defaults u f => if u = t then some f else none
  | _ => none

/-- The defaults of a type that were declared last. -/
def inForce (cs : List Declaration) (t : String) : Defaults :=
  (cs.reverse.findSome? (provides? t)).getD {}

end Declaration

/-- The operation of a draft that is declared on an element: under its own name or that of the element,
    with what the type provides. -/
def Draft.Gives (element : String) (f : Defaults) (d : Draft) (o : Operation) : Prop :=
  ((d.named element).inherit f).build = .ok o ∧ o.name = if d.name = "" then element else d.name

namespace Draft

variable (d : Draft) (n : String) (f : Defaults)

theorem named_name : (d.named n).name = if d.name = "" then n else d.name := by
  unfold named
  by_cases h : d.name = "" <;> simp [h]

theorem build_named : (∃ e, (d.named n).build = .error e) ↔ ∃ e, d.build = .error e := by
  unfold named
  by_cases h : d.name.isEmpty = true
  · rw [if_pos h]
    unfold build
    cases d.misuse with
    | some a => simp
    | none =>
      dsimp only
      split_ifs <;> simp
  · rw [if_neg h]

theorem gives_of_build {o : Operation} (h : ((d.named n).inherit f).build = .ok o) :
    d.Gives n f o := by
  refine ⟨h, ?_⟩
  rw [← operation_of_build h]
  exact d.named_name n

theorem buildAll_cases (n : String) (f : Defaults) (ds : List Draft) :
    (∃ os, buildAll n f ds = .ok os ∧ List.Forall₂ (Gives n f) ds os) ∨
      (∃ e, buildAll n f ds = .error e) ∧ ∃ d ∈ ds, ∃ e, d.build = .error e := by
  induction ds with
  | nil => exact .inl ⟨[], rfl, .nil⟩
  | cons d ds ih =>
    have hcons : buildAll n f (d :: ds) = (do
        let o ← ((d.named n).inherit f).build
        let os ← buildAll n f ds
        pure (o :: os)) := by
      simp only [buildAll, List.mapM_cons]
    cases hd : ((d.named n).inherit f).build with
    | error e =>
      have hown : ∃ e, d.build = .error e := (d.build_named n).1 ⟨e, (build_inherit _ f e).1 hd⟩
      refine .inr ⟨⟨e, ?_⟩, d, List.mem_cons_self, hown⟩
      rw [hcons, hd]
      rfl
    | ok o =>
      obtain ⟨os, hos, hgives⟩ | ⟨⟨e, he⟩, x, hx, hfails⟩ := ih
      · refine .inl ⟨o :: os, ?_, .cons (d.gives_of_build n f hd) hgives⟩
        rw [hcons, hd, hos]
        rfl
      · refine .inr ⟨⟨e, ?_⟩, x, List.mem_cons_of_mem d hx, hfails⟩
        rw [hcons, hd, he]
        rfl

theorem builds_of_gives {n : String} {f : Defaults} {ds : List Draft} {os : List Operation}
    (h : List.Forall₂ (Gives n f) ds os) : ¬ ∃ d ∈ ds, ∃ e, d.build = .error e := by
  have hall : ∀ d ∈ ds, ¬ ∃ e, d.build = .error e := by
    refine ((List.forall₂_and_left ds os).1 (h.imp fun d o hgives => ⟨fun hfails => ?_, hgives⟩)).1
    obtain ⟨e, he⟩ := (d.build_named n).2 hfails
    cases ((build_inherit _ f e).2 he).symm.trans hgives.1
  rintro ⟨d, hd, hfails⟩
  exact hall d hd hfails

end Draft

namespace Declared

/-- The operations that an element is reported to have. -/
def report (d : Declared) : Place → List Operation
  | .method k => d.ofMethod k
  | .type t => d.ofType t

def next (d : Declared) (c : Declaration) : Declared :=
  match d.declare c with
  | .ok d' => d'
  | .error _ => d

def after (cs : List Declaration) : Declared := cs.foldl next {}

theorem after_concat (cs : List Declaration) (c : Declaration) :
    after (cs ++ [c]) = (after cs).next c := List.foldl_concat next {} c cs

def file (d : Declared) (os : List Operation) : Place → Declared
  | .method k => { d with methods := (k, os) :: d.methods }
  | .type t => { d with types := (t, os) :: d.types }

theorem report_file (d : Declared) (os : List Operation) (p q : Place) :
    (d.file os p).report q = if q = p then os else d.report q := by
  cases p <;> cases q <;>
    simp only [file, report, ofMethod, ofType, lookup_cons_if, Place.method.injEq,
      Place.type.injEq, reduceCtorEq, if_false] <;>
    split <;> rfl

theorem defaultsOf_file (d : Declared) (os : List Operation) (p : Place) (t : String) :
    (d.file os p).defaultsOf t = d.defaultsOf t := by cases p <;> rfl

inductive Takes (d : Declared) (c : Declaration) : Except OperationFault Declared → Prop where
  | provided (t : String) (f : Defaults) (hc : c = .defaults t f) :
      Takes d c (.ok { d with defaults := (t, f) :: d.defaults })
  | filed (p : Place) (os : List Operation) (hp : c.place? = some p) (hne : c.drafts ≠ [])
      (hos : List.Forall₂ (Draft.Gives c.element (d.defaultsOf c.owner)) c.drafts os) :
      Takes d c (.ok (d.file os p))
  | idle (p : Place) (hp : c.place? = some p) (hnone : c.drafts = []) : Takes d c (.ok d)
  | refused (p : Place) (hp : c.place? = some p) (e : OperationFault)
      (hfails : ∃ x ∈ c.drafts, ∃ e, x.build = .error e) : Takes d c (.error e)

theorem declare_file (d : Declared) {c : Declaration} {p : Place} (hp : c.place? = some p) :
    d.declare c = (Draft.buildAll c.element (d.defaultsOf c.owner) c.drafts).map fun os =>
      if os.isEmpty then d else d.file os p := by
  cases c with
  | defaults t f => cases hp
  | type t ops | method m ops =>
    cases hp
    rw [declare, Declaration.element, Declaration.owner, Declaration.drafts]
    generalize Draft.buildAll _ _ ops = built
    cases built with
    | error e => rfl
    | ok os => cases os <;> rfl

theorem declare_takes (d : Declared) (c : Declaration) : Takes d c (d.declare c) := by
  cases hp : c.place? with
  | none =>
    cases c with
    | defaults t f => exact .provided t f rfl
    | _ => cases hp
  | some p =>
    rw [declare_file d hp]
    obtain ⟨os, hbuilt, hos⟩ | ⟨⟨e, he⟩, hfails⟩ :=
      Draft.buildAll_cases c.element (d.defaultsOf c.owner) c.drafts
    · rw [hbuilt]
      cases os with
      | nil => exact .idle p hp (List.forall₂_nil_right_iff.1 hos)
      | cons o os =>
        refine .filed p (o :: os) hp (fun hnone => ?_) hos
        rw [hnone] at hos
        cases hos
    · rw [he]
      exact .refused p hp e hfails

theorem next_takes (d : Declared) (c : Declaration) :
    ∃ r, Takes d c r ∧ d.next c = r.toOption.getD d := by
  refine ⟨d.declare c, d.declare_takes c, ?_⟩
  unfold next
  cases d.declare c <;> rfl

theorem defaultsOf_next (d : Declared) (c : Declaration) (t : String) :
    (d.next c).defaultsOf t = (c.provides? t).getD (d.defaultsOf t) := by
  obtain ⟨r, htakes, hnext⟩ := d.next_takes c
  rw [hnext]
  have hplace {p : Place} (hp : c.place? = some p) : c.provides? t = none := by
    cases c with
    | defaults u f => cases hp
    | _ => rfl
  cases htakes with
  | provided u f hc =>
    subst hc
    simp only [Except.toOption, Option.getD_some, defaultsOf, lookup_cons_if,
      Declaration.provides?]
    by_cases h : t = u
    · simp [h]
    · simp [h, Ne.symm h]
  | filed p os hp =>
    rw [hplace hp]
    exact d.defaultsOf_file os p t
  | idle p hp => rw [hplace hp]; rfl
  | refused p hp => rw [hplace hp]; rfl

theorem defaultsOf_after (cs : List Declaration) (t : String) :
    (after cs).defaultsOf t = Declaration.inForce cs t := by
  induction cs using List.reverseRecOn with
  | nil => rfl
  | append_singleton cs c ih =>
    rw [after_concat, defaultsOf_next, ih, Declaration.inForce, Declaration.inForce,
      List.reverse_append, List.reverse_singleton, List.singleton_append, List.findSome?_cons]
    cases c.provides? t <;> rfl

theorem declare_error_iff (d : Declared) (c : Declaration) :
    (∃ e, d.declare c = .error e) ↔ ∃ x ∈ c.drafts, ∃ e, x.build = .error e := by
  have hbuilds (hnone : c.drafts = []) : ¬ ∃ x ∈ c.drafts, ∃ e, x.build = .error e := by
    rintro ⟨x, hx, -⟩
    rw [hnone] at hx
    cases hx
  have htakes := d.declare_takes c
  generalize d.declare c = r at htakes
  cases htakes with
  | provided t f hc =>
    subst hc
    exact iff_of_false nofun (hbuilds rfl)
  | filed p os hp hne hos => exact iff_of_false nofun (Draft.builds_of_gives hos)
  | idle p hp hnone => exact iff_of_false nofun (hbuilds hnone)
  | refused p hp e hfails => exact iff_of_true ⟨e, rfl⟩ hfails

/-- Whether a declaration fails or has no operations. -/
def Idle (c : Declaration) : Prop := c.drafts = [] ∨ ∃ x ∈ c.drafts, ∃ e, x.build = .error e

theorem report_next (d : Declared) (c : Declaration) (p : Place) :
    (c.place? = some p ∧ ¬ Idle c ∧
      List.Forall₂ (Draft.Gives c.element (d.defaultsOf c.owner)) c.drafts ((d.next c).report p)) ∨
      (d.next c).report p = d.report p ∧ (c.place? = some p → Idle c) := by
  obtain ⟨r, htakes, hnext⟩ := d.next_takes c
  rw [hnext]
  cases htakes with
  | provided t f hc =>
    subst hc
    exact .inr ⟨by cases p <;> rfl, nofun⟩
  | filed q os hq hne hos =>
    have hreport : (d.file os q).report p = if p = q then os else d.report p := d.report_file os q p
    by_cases hp : p = q
    · rw [if_pos hp] at hreport
      refine .inl ⟨hp ▸ hq, fun hidle => ?_, hreport.symm ▸ hos⟩
      exact hidle.elim hne fun hfails => Draft.builds_of_gives hos hfails
    · rw [if_neg hp] at hreport
      exact .inr ⟨hreport, fun hq' => absurd (Option.some.inj (hq'.symm.trans hq)) hp⟩
  | idle q hq hnone => exact .inr ⟨rfl, fun _ => .inl hnone⟩
  | refused q hq e hfails => exact .inr ⟨rfl, fun _ => .inr hfails⟩

theorem report_last (cs : List Declaration) (p : Place) :
    ((after cs).report p = [] ∧ ∀ c ∈ cs, c.place? = some p → Idle c) ∨
      ∃ before c later, cs = before ++ c :: later ∧ c.place? = some p ∧
        List.Forall₂ (Draft.Gives c.element (Declaration.inForce before c.owner)) c.drafts
          ((after cs).report p) ∧ ∀ x ∈ later, x.place? = some p → Idle x := by
  induction cs using List.reverseRecOn with
  | nil => exact .inl ⟨by cases p <;> rfl, nofun⟩
  | append_singleton cs c ih =>
    rw [after_concat]
    obtain ⟨hp, -, hgives⟩ | ⟨hsame, hidle⟩ := (after cs).report_next c p
    · rw [defaultsOf_after] at hgives
      exact .inr ⟨cs, c, [], rfl, hp, hgives, nofun⟩
    · rw [hsame]
      have hadd {later : List Declaration} (h : ∀ x ∈ later, x.place? = some p → Idle x) :
          ∀ x ∈ later ++ [c], x.place? = some p → Idle x := by
        intro x hx
        obtain hx | hx := List.mem_append.1 hx
        · exact h x hx
        · cases List.mem_singleton.1 hx
          exact hidle
      obtain ⟨hempty, hall⟩ | ⟨before, b, later, rfl, hp, hgives, hall⟩ := ih
      · exact .inl ⟨hempty, hadd hall⟩
      · exact .inr ⟨before, b, later ++ [c], by simp, hp, hgives, hadd hall⟩

/-- After any series of declarations, one more replaces what is reported for its element by its own
    operations, each named and with the defaults in force, and touches no other element. If one of its
    operations cannot be built, it fails and nothing changes. Only a declaration of no operations does
    not replace: it leaves everything as it was. -/
theorem declare_replaces (before : List Declaration) (c : Declaration) :
    let d := after before
    let d' := after (before ++ [c])
    (∀ p, c.place? ≠ some p → d'.report p = d.report p) ∧
    (∀ e, d.declare c = .error e → ∀ p, d'.report p = d.report p) ∧
    (∀ p, c.place? = some p → (∃ x, d.declare c = .ok x) → c.drafts ≠ [] ∨ d.report p = [] →
      List.Forall₂ (Draft.Gives c.element (Declaration.inForce before c.owner)) c.drafts
        (d'.report p)) ∧
    (c.drafts = [] → (∃ x, d.declare c = .ok x) ∧ ∀ p, d'.report p = d.report p) ∧
    ((∃ e, d.declare c = .error e) ↔ ∃ x ∈ c.drafts, ∃ e, x.build = .error e) := by
  intro d d'
  have hnext : d' = d.next c := after_concat before c
  have herror := d.declare_error_iff c
  have hidle (h : Idle c) (p : Place) : d'.report p = d.report p := by
    obtain ⟨-, hbusy, -⟩ | ⟨hsame, -⟩ := d.report_next c p
    · exact absurd h hbusy
    · exact hnext ▸ hsame
  refine ⟨fun p hp => ?_, fun e he => hidle (.inr (herror.1 ⟨e, he⟩)), fun p hp hok hsome => ?_,
    fun hnone => ⟨?_, hidle (.inl hnone)⟩, herror⟩
  · obtain ⟨hp', -⟩ | ⟨hsame, -⟩ := d.report_next c p
    · exact absurd hp' hp
    · exact hnext ▸ hsame
  · obtain ⟨-, -, hgives⟩ | ⟨hsame, hidle⟩ := d.report_next c p
    · rw [hnext, ← defaultsOf_after]
      exact hgives
    · obtain hnone | hfails := hidle hp
      · have hempty : d'.report p = [] := by
          rw [hnext, hsame]
          exact hsome.resolve_left fun h => h hnone
        rw [hnone, hempty]
        exact .nil
      · obtain ⟨x, hx⟩ := hok
        obtain ⟨e, he⟩ := herror.2 hfails
        cases he.symm.trans hx
  · cases hr : d.declare c with
    | ok x => exact ⟨x, rfl⟩
    | error e =>
      obtain ⟨x, hx, -⟩ := herror.1 ⟨e, hr⟩
      rw [hnone] at hx
      cases hx

def shopPrice : Method := ⟨"Shop", "price", [], .anyone, false, false⟩

def priced : List Declaration :=
  [.defaults "Shop" { cacheNames := ["prices"] }, .type "Shop" [.put],
    .method shopPrice [.cacheable, .evict]]

theorem declare_replaces_price :
    (∃ o, (after (priced ++ [.method shopPrice [.cacheable]])).report (.method shopPrice.key) = [o] ∧
      o.name = "Shop.price()") ∧
    (after (priced ++ [.method shopPrice [.cacheable]])).report (.type "Shop") =
      (after priced).report (.type "Shop") ∧
    (after (priced ++ [.method shopPrice [.cacheable, Draft.put.set (.sync true)]])).report
      (.method shopPrice.key) = (after priced).report (.method shopPrice.key) := by
  obtain ⟨hothers, -, hown, -, hfails⟩ := declare_replaces priced (.method shopPrice [.cacheable])
  obtain ⟨-, hsame, -, -, hfails'⟩ :=
    declare_replaces priced (.method shopPrice [.cacheable, Draft.put.set (.sync true)])
  have hok : ∃ x, (after priced).declare (.method shopPrice [.cacheable]) = .ok x := by
    cases hr : (after priced).declare (.method shopPrice [.cacheable]) with
    | ok x => exact ⟨x, rfl⟩
    | error e =>
      obtain ⟨x, hx, e, he⟩ := hfails.1 ⟨e, hr⟩
      cases List.mem_singleton.1 hx
      cases he
  obtain ⟨e, he⟩ := hfails'.2 ⟨Draft.put.set (.sync true), by simp [Declaration.drafts], _, rfl⟩
  refine ⟨?_, hothers (.type "Shop") nofun, hsame e he _⟩
  have hgives := hown (.method shopPrice.key) rfl hok (.inl (List.cons_ne_nil _ _))
  obtain ⟨o, os, ho, hos, hreport⟩ := List.forall₂_cons_left_iff.1 hgives
  cases hos
  exact ⟨o, hreport, ho.2.trans (by decide +kernel)⟩

/-- A declaration of no operations does not take away those that were declared before. -/
theorem report_kept :
    (∃ x, (after priced).declare (.method shopPrice []) = .ok x) ∧
      (after (priced ++ [.method shopPrice []])).report (.method shopPrice.key) ≠ [] :=
  ⟨⟨_, rfl⟩, by decide +kernel⟩

end Declared

end CachedCalls
