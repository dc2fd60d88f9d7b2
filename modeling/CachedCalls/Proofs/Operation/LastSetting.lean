import CachedCalls.Proofs.Operation.Attribute

set_option autoImplicit false

namespace CachedCalls

namespace Draft

theorem setAll_content (d : Draft) (ss : List Setting) {a : Attribute} (ha : d.kind.admits a) :
    (d.setAll ss).kind.label = d.kind.label ∧
      (d.setAll ss).content a = (Setting.last? ss a).getD (d.content a) := by
  induction ss generalizing d with
  | nil => exact ⟨rfl, rfl⟩
  | cons x ss ih =>
    obtain ⟨hlabel, hcontent⟩ := d.set_content x ha
    obtain ⟨hlabel', hcontent'⟩ := ih (d.set x) (by rwa [OperationKind.admits_congr hlabel])
    exact ⟨hlabel'.trans hlabel, by rw [Setting.last?_cons, ← hcontent, ← hcontent']; rfl⟩

theorem setAll_admitted (d : Draft) {ss : List Setting} (h : ∀ x ∈ ss, d.kind.admits x.sets) :
    (d.setAll ss).kind.label = d.kind.label ∧ (d.setAll ss).misuse = d.misuse ∧
      ∀ a, (d.setAll ss).content a = (Setting.last? ss a).getD (d.content a) := by
  induction ss generalizing d with
  | nil => exact ⟨rfl, rfl, fun _ => rfl⟩
  | cons x ss ih =>
    obtain ⟨hx, hss⟩ := List.forall_mem_cons.1 h
    obtain ⟨hlabel, hmisuse, hcontent⟩ := d.set_admitted x hx
    obtain ⟨hlabel', hmisuse', hcontent'⟩ := ih (d.set x) fun y hy => by
      rw [OperationKind.admits_congr hlabel]
      exact hss y hy
    refine ⟨hlabel'.trans hlabel, hmisuse'.trans hmisuse, fun a => ?_⟩
    rw [Setting.last?_cons, ← hcontent a, ← hcontent' a]
    rfl

theorem setAll_misuse {d : Draft} {a : KindAttribute} (h : d.misuse = some a)
    (ss : List Setting) : (d.setAll ss).misuse = some a := by
  induction ss generalizing d with
  | nil => exact h
  | cons x ss ih =>
    refine ih (d := d.set x) ?_
    obtain hx | ⟨b, -, -, hset⟩ := d.set_cases x
    · rw [(d.set_admitted x hx).2.1, h]
    · rw [hset, misused, h, Option.some_or]

theorem setAll_append (d : Draft) (ss ts : List Setting) :
    d.setAll (ss ++ ts) = (d.setAll ss).setAll ts := List.foldl_append

theorem build_of_misuse {d : Draft} {a : KindAttribute} (h : d.misuse = some a) :
    d.build = .error (.unsupported d.name a d.kind.label) := by
  unfold build
  rw [h]

theorem build_eq_ok_iff {d : Draft} (h : d.misuse = none) {o : Operation} :
    d.build = .ok o ↔ (d.key = none ∨ d.keyGenerator = none) ∧
      (d.manager = none ∨ d.resolver = none) ∧ d.operation = o := by
  unfold build
  rw [h]
  change (if d.key.isSome && d.keyGenerator.isSome then Except.error (OperationFault.keyTwice d.name)
    else if d.manager.isSome && d.resolver.isSome then .error (OperationFault.cachesTwice d.name)
    else .ok d.operation) = .ok o ↔ _
  cases d.key <;> cases d.keyGenerator <;> cases d.manager <;> cases d.resolver <;> simp

theorem operation_of_build {d : Draft} {o : Operation} (h : d.build = .ok o) : d.operation = o := by
  cases hmisuse : d.misuse with
  | some a =>
    rw [build_of_misuse hmisuse] at h
    cases h
  | none => exact ((build_eq_ok_iff hmisuse).1 h).2.2

end Draft

namespace OperationKind

/-- What the settings leave an attribute of an operation of this kind at. -/
def settled (k : OperationKind) (ss : List Setting) (a : Attribute) : Content :=
  (Setting.last? ss a).getD ((Draft.ofKind k).content a)

def built (k : OperationKind) (ss : List Setting) : Except OperationFault Operation :=
  ((Draft.ofKind k).setAll ss).build

theorem settled_admitted {k : OperationKind} {ss : List Setting}
    (h : ∀ x ∈ ss, k.admits x.sets) :
    ((Draft.ofKind k).setAll ss).kind.label = k.label ∧
      ((Draft.ofKind k).setAll ss).misuse = none ∧
        ∀ a, ((Draft.ofKind k).setAll ss).content a = k.settled ss a :=
  (Draft.ofKind k).setAll_admitted h

/-- Building looks at the last setting of each attribute and at nothing else, and it fails only if
    two that exclude each other are set, or with the first attribute that the kind lacks. -/
theorem build_settings (k : OperationKind) :
    (∀ ss ts : List Setting, (∀ x ∈ ss ++ ts, k.admits x.sets) →
      (∀ a, k.settled ss a = k.settled ts a) → k.built ss = k.built ts) ∧
    (∀ ss : List Setting, (∀ x ∈ ss, k.admits x.sets) →
      ((∃ o, k.built ss = .ok o) ↔
        (k.settled ss .key = .text none ∨ k.settled ss .keyGenerator = .text none) ∧
          (k.settled ss .manager = .text none ∨ k.settled ss .resolver = .text none)) ∧
      ∀ o, k.built ss = .ok o → o.kind.label = k.label ∧ ∀ a, o.content a = k.settled ss a) ∧
    ∀ (ss ts : List Setting) (x : Setting) (a : KindAttribute), (∀ y ∈ ss, k.admits y.sets) →
      x.sets = .special a → k.admits (.special a) = false →
        ∃ n, k.settled (ss ++ x :: ts) .name = .word n ∧
          k.built (ss ++ x :: ts) = .error (.unsupported n a k.label) := by
  refine ⟨fun ss ts h hsame => ?_, fun ss h => ?_, fun ss ts x a h hx ha => ?_⟩
  · obtain ⟨hss, hts⟩ := List.forall_mem_append.1 h
    obtain ⟨hlabel, hmisuse, hcontent⟩ := settled_admitted hss
    obtain ⟨hlabel', hmisuse', hcontent'⟩ := settled_admitted hts
    have hdraft : (Draft.ofKind k).setAll ss = (Draft.ofKind k).setAll ts :=
      Draft.eq_of_content (fun a => by rw [hcontent, hcontent', hsame])
        (hlabel.trans hlabel'.symm) (hmisuse.trans hmisuse'.symm)
    rw [built, built, hdraft]
  · obtain ⟨hlabel, hmisuse, hcontent⟩ := settled_admitted h
    refine ⟨?_, fun o ho => ?_⟩
    · simp only [built, Draft.build_eq_ok_iff hmisuse, ← hcontent]
      simp [Draft.content, Operation.content, Draft.operation]
    · obtain ⟨-, -, rfl⟩ := (Draft.build_eq_ok_iff hmisuse).1 ho
      exact ⟨hlabel, hcontent⟩
  · obtain ⟨hlabel, hmisuse, -⟩ := settled_admitted h
    have hset : ((Draft.ofKind k).setAll ss).set x = ((Draft.ofKind k).setAll ss).misused a :=
      Draft.set_refused _ x hx (by rwa [admits_congr hlabel])
    have hfirst : (((Draft.ofKind k).setAll ss).set x).misuse = some a := by
      rw [hset, Draft.misused, hmisuse, Option.none_or]
    have hall : (Draft.ofKind k).setAll (ss ++ x :: ts) =
        (((Draft.ofKind k).setAll ss).set x).setAll ts := Draft.setAll_append _ ss (x :: ts)
    obtain ⟨hkind, hname⟩ := (Draft.ofKind k).setAll_content (ss ++ x :: ts) (a := .name) rfl
    refine ⟨_, hname.symm, ?_⟩
    rw [built, Draft.build_of_misuse (by rw [hall]; exact Draft.setAll_misuse hfirst ts), hkind]
    rfl

def byItem : List Setting :=
  [.name "Shop.price", .cacheNames ["prices", "offers"], .key "#item", .sync true]

def byItemAtLast : List Setting :=
  [.sync true, .keyGenerator "items", .key " ", .cacheNames ["drafts"], .condition "#item != null",
    .keyGenerator " ", .cacheNames ["prices", "offers", "prices"], .key "#item", .condition "",
    .name "Shop.price"]

theorem build_settings_item :
    (cacheable none false).built byItem = (cacheable none false).built byItemAtLast ∧
      (∃ o, (cacheable none false).built byItem = .ok o) ∧
      (evict false false).built (byItem ++ [.unless_ "#result == null"]) =
        .error (.unsupported "Shop.price" .sync "Evict") := by
  have hadmits : ∀ x ∈ byItem ++ byItemAtLast, (cacheable none false).admits x.sets := by decide
  have hitem : ∀ x ∈ byItem, (cacheable none false).admits x.sets := fun x hx =>
    hadmits x (List.mem_append_left _ hx)
  refine ⟨(build_settings _).1 _ _ hadmits fun a => ?_,
    ((build_settings _).2.1 _ hitem).1.2 ⟨.inr (by decide +kernel), .inl (by decide +kernel)⟩, ?_⟩
  · cases a with
    | special a => cases a <;> decide +kernel
    | _ => decide +kernel
  · obtain ⟨n, hn, hbuilt⟩ := (build_settings (evict false false)).2.2
      [.name "Shop.price", .cacheNames ["prices", "offers"], .key "#item"]
      [.unless_ "#result == null"] (.sync true) .sync (by decide) rfl rfl
    cases hn
    exact hbuilt

end OperationKind

end CachedCalls
