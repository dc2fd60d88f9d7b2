import CachedCalls.Operation.Draft
import Mathlib.Data.List.Induction

set_option autoImplicit false

namespace CachedCalls

inductive Attribute where
  | name
  | cacheNames
  | key
  | keyGenerator
  | manager
  | resolver
  | condition
  | special (a : KindAttribute)
  deriving DecidableEq

/-- What an attribute holds; expressions and names of components may be missing. -/
inductive Content where
  | word (s : String)
  | names (ns : List String)
  | text (s : Option String)
  | flag (b : Bool)
  deriving DecidableEq

namespace OperationKind

def specials : OperationKind → List KindAttribute
  | cacheable _ _ => [.unless_, .sync]
  | put _ => [.unless_]
  | evict _ _ => [.allEntries, .beforeInvocation]

/-- Whether operations of the kind have the attribute. -/
def admits (k : OperationKind) : Attribute → Bool
  | .special a => k.specials.contains a
  | _ => true

theorem admits_congr {k l : OperationKind} (h : k.label = l.label) : k.admits = l.admits := by
  have hspecials : k.specials = l.specials := by
    cases k <;> cases l <;> first | rfl | exact absurd h (by simp [label])
  funext a
  cases a <;> simp only [admits, hspecials]

def content : OperationKind → KindAttribute → Content
  | k, .unless_ => .text k.veto
  | k, .sync => .flag k.isSync
  | evict x _, .allEntries => .flag x
  | evict _ y, .beforeInvocation => .flag y
  | _, _ => .flag false

end OperationKind

def Operation.content (o : Operation) : Attribute → Content
  | .name => .word o.name
  | .cacheNames => .names o.cacheNames
  | .key => .text o.key
  | .keyGenerator => .text o.keyGenerator
  | .manager => .text o.manager
  | .resolver => .text o.resolver
  | .condition => .text o.condition
  | .special a => o.kind.content a

namespace Setting

def sets : Setting → Attribute
  | name _ => .name
  | cacheNames _ => .cacheNames
  | key _ => .key
  | keyGenerator _ => .keyGenerator
  | manager _ => .manager
  | resolver _ => .resolver
  | condition _ => .condition
  | unless_ _ => .special .unless_
  | sync _ => .special .sync
  | allEntries _ => .special .allEntries
  | beforeInvocation _ => .special .beforeInvocation

def content : Setting → Content
  | name s => .word s
  | cacheNames ns => .names ns.eraseDups
  | key s | keyGenerator s | manager s | resolver s | condition s | unless_ s =>
    .text (Text.nonBlank s)
  | sync b | allEntries b | beforeInvocation b => .flag b

/-- The last that the settings put into an attribute. -/
def last? (ss : List Setting) (a : Attribute) : Option Content :=
  (ss.filter fun x => x.sets = a).getLast?.map content

theorem last?_cons (x : Setting) (ss : List Setting) (a : Attribute) (c : Content) :
    (last? (x :: ss) a).getD c = (last? ss a).getD (if x.sets = a then x.content else c) := by
  unfold last?
  by_cases h : x.sets = a
  · rw [List.filter_cons_of_pos (by simpa using h), List.getLast?_cons, if_pos h]
    cases (ss.filter fun x => decide (x.sets = a)).getLast? <;> rfl
  · rw [List.filter_cons_of_neg (by simpa using h), if_neg h]

end Setting

theorem distinct_eq_eraseDups (ns : List String) : distinct ns = ns.eraseDups := by
  induction ns using List.reverseRecOn with
  | nil => rfl
  | append_singleton ns n ih =>
    have hstep : distinct (ns ++ [n]) =
        if n ∈ distinct ns then distinct ns else distinct ns ++ [n] := by
      rw [distinct, List.foldl_append]
      rfl
    rw [hstep, ih, List.eraseDups_append]
    by_cases h : n ∈ ns <;> simp [h, List.removeAll, List.eraseDups_cons]

namespace Draft

def operation (d : Draft) : Operation :=
  ⟨d.name, d.cacheNames, d.key, d.keyGenerator, d.manager, d.resolver, d.condition, d.kind⟩

def content (d : Draft) : Attribute → Content := d.operation.content

theorem eq_of_content {d e : Draft} (h : ∀ a, d.content a = e.content a)
    (hkind : d.kind.label = e.kind.label) (hmisuse : d.misuse = e.misuse) : d = e := by
  have hk : d.kind = e.kind := by
    have hveto := h (.special .unless_)
    have hsync := h (.special .sync)
    have hall := h (.special .allEntries)
    have hbefore := h (.special .beforeInvocation)
    simp only [content, operation, Operation.content] at hveto hsync hall hbefore
    cases hd : d.kind <;> cases he : e.kind <;> rw [hd, he] at hkind hveto hsync hall hbefore <;>
      simp_all [OperationKind.label, OperationKind.content, OperationKind.veto,
        OperationKind.isSync]
  cases d
  cases e
  have hname := Content.word.inj (h .name)
  have hcaches := Content.names.inj (h .cacheNames)
  have hkey := Content.text.inj (h .key)
  have hgenerator := Content.text.inj (h .keyGenerator)
  have hmanager := Content.text.inj (h .manager)
  have hresolver := Content.text.inj (h .resolver)
  have hcondition := Content.text.inj (h .condition)
  simp_all [operation]

section Set

variable (d : Draft) (x : Setting)

theorem set_admitted (h : d.kind.admits x.sets) :
    (d.set x).kind.label = d.kind.label ∧ (d.set x).misuse = d.misuse ∧
      ∀ a, (d.set x).content a = if x.sets = a then x.content else d.content a := by
  cases x with
  | unless_ s | sync b | allEntries b | beforeInvocation b =>
    -- what the kind holds itself is replaced in it
    cases hk : d.kind <;> rw [hk] at h <;> first
      | exact absurd h Bool.false_ne_true
      | refine ⟨by simp only [set, hk, OperationKind.label], by simp only [set, hk], fun a => ?_⟩
        cases a with
        | special a => cases a <;> simp only [set, content, operation, Operation.content, hk] <;> rfl
        | _ => (simp only [set, hk]; rfl)
  | cacheNames ns =>
    refine ⟨rfl, rfl, fun a => ?_⟩
    cases a with
    | cacheNames => exact congrArg Content.names (distinct_eq_eraseDups ns)
    | _ => rfl
  | _ => exact ⟨rfl, rfl, fun a => by cases a <;> rfl⟩

theorem set_refused {a : KindAttribute} (hx : x.sets = .special a)
    (h : d.kind.admits (.special a) = false) : d.set x = d.misused a := by
  cases x <;> cases hx <;> cases hk : d.kind <;> rw [hk] at h <;> first
    | exact absurd h Bool.false_ne_true.symm
    | simp only [set, hk]

theorem set_cases : d.kind.admits x.sets = true ∨
    ∃ a, x.sets = .special a ∧ d.kind.admits x.sets = false ∧ d.set x = d.misused a := by
  cases h : d.kind.admits x.sets with
  | true => exact .inl rfl
  | false =>
    cases hx : x.sets with
    | special a => exact .inr ⟨a, rfl, rfl, d.set_refused x hx (hx ▸ h)⟩
    | _ =>
      rw [hx] at h
      exact absurd h Bool.false_ne_true.symm

theorem set_content {a : Attribute} (ha : d.kind.admits a) :
    (d.set x).kind.label = d.kind.label ∧
      (d.set x).content a = if x.sets = a then x.content else d.content a := by
  obtain h | ⟨b, -, hb, hset⟩ := d.set_cases x
  · obtain ⟨hlabel, -, hcontent⟩ := d.set_admitted x h
    exact ⟨hlabel, hcontent a⟩
  · have hne : x.sets ≠ a := fun hx => Bool.false_ne_true (hb.symm.trans (hx ▸ ha))
    rw [hset, if_neg hne]
    exact ⟨rfl, rfl⟩

end Set

end Draft

end CachedCalls
