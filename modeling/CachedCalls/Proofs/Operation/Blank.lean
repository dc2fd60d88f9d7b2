import CachedCalls.Proofs.Operation.Inheritance
import CachedCalls.Proofs.Operation.LastSetting

set_option autoImplicit false

namespace CachedCalls

def Content.isBlank : Content → Bool
  | text (some s) => Text.isBlank s
  | _ => false

def Defaults.content (f : Defaults) : Attribute → Content
  | .cacheNames => .names f.cacheNames
  | .keyGenerator => .text f.keyGenerator
  | .manager => .text f.manager
  | .resolver => .text f.resolver
  | _ => .text none

theorem Setting.content_not_blank (x : Setting) : x.content.isBlank = false := by
  cases x with
  | key s | keyGenerator s | manager s | resolver s | condition s | unless_ s =>
    simp only [content]
    cases hs : Text.nonBlank s with
    | none => rfl
    | some t =>
      obtain ⟨hblank, rfl⟩ := (Text.nonBlank_eq_some_iff s t).1 hs
      exact hblank
  | _ => rfl

theorem Content.isSet_of_blank {c : Content} (h : c.isBlank = true) : c.isSet = true := by
  cases c with
  | text s =>
    cases s with
    | none => cases h
    | some t => rfl
  | _ => cases h

namespace Draft

inductive Call where
  | set (x : Setting)
  | inherit (f : Defaults)

def call (d : Draft) : Call → Draft
  | .set x => d.set x
  | .inherit f => d.inherit f

def callAll (d : Draft) (cs : List Call) : Draft := cs.foldl call d

theorem callAll_append (d : Draft) (cs ds : List Call) :
    d.callAll (cs ++ ds) = (d.callAll cs).callAll ds := List.foldl_append

section Blank

variable (d : Draft) (a : Attribute)

theorem admits_of_blank (h : (d.content a).isBlank = true) : d.kind.admits a = true := by
  cases a with
  | special b =>
    simp only [content, operation, Operation.content] at h
    cases hk : d.kind <;> cases b <;> rw [hk] at h <;> first | rfl | cases h
  | _ => rfl

theorem blank_set (x : Setting) : ((d.set x).content a).isBlank = true ↔
    (d.content a).isBlank = true ∧ x.sets ≠ a := by
  by_cases ha : d.kind.admits a
  · rw [(d.set_content x ha).2]
    by_cases hx : x.sets = a <;> simp [hx, x.content_not_blank]
  · have hlabel := (d.set_content x (a := .name) rfl).1
    refine iff_of_false (fun h => ha ?_) fun h => ha (d.admits_of_blank a h.1)
    rw [← OperationKind.admits_congr hlabel]
    exact (d.set x).admits_of_blank a h

theorem inherit_either (f : Defaults) (ha : a ≠ .cacheNames) :
    (d.inherit f).content a = d.content a ∨ (d.inherit f).content a = f.content a := by
  cases a with
  | cacheNames => exact absurd rfl ha
  | keyGenerator | manager | resolver =>
    simp only [content, operation, Operation.content, Defaults.content, inherit]
    split <;> simp
  | _ => exact .inl rfl

theorem blank_inherit (f : Defaults) : ((d.inherit f).content a).isBlank = true ↔
    (d.content a).isBlank = true ∨
      (f.content a).isBlank = true ∧ (d.inherit f).content a = f.content a := by
  refine ⟨fun h => ?_, fun h => ?_⟩
  · have ha : a ≠ .cacheNames := by
      rintro rfl
      cases h
    obtain hleft | htaken := d.inherit_either a f ha
    · exact .inl (hleft ▸ h)
    · exact .inr ⟨htaken ▸ h, htaken⟩
  · obtain h | ⟨h, htaken⟩ := h
    · rw [d.inherit_spares f (.inr (Content.isSet_of_blank h))]
      exact h
    · rw [htaken]
      exact h

end Blank

/-- The attribute is taken over blank, and not set after that. -/
def InheritsBlank (d : Draft) (a : Attribute) (cs : List Call) : Prop :=
  ∃ before f after, cs = before ++ .inherit f :: after ∧ (f.content a).isBlank = true ∧
    ((d.callAll before).inherit f).content a = f.content a ∧ ∀ x, .set x ∈ after → x.sets ≠ a

theorem inheritsBlank_append (d : Draft) (a : Attribute) (cs : List Call) (c : Call) :
    d.InheritsBlank a (cs ++ [c]) ↔
      (d.InheritsBlank a cs ∧ ∀ x, c = .set x → x.sets ≠ a) ∨
        ∃ f, c = .inherit f ∧ (f.content a).isBlank = true ∧
          ((d.callAll cs).inherit f).content a = f.content a := by
  constructor
  · rintro ⟨before, f, after, hcs, hblank, htaken, hafter⟩
    -- The last call is the one that takes the attribute over, or one after it.
    obtain rfl | ⟨after, e, rfl⟩ := List.eq_nil_or_concat after
    · obtain ⟨rfl, hc⟩ := List.append_inj' hcs rfl
      cases hc
      exact .inr ⟨f, rfl, hblank, htaken⟩
    · rw [List.concat_eq_append, ← List.cons_append, ← List.append_assoc] at hcs
      obtain ⟨rfl, hc⟩ := List.append_inj' hcs rfl
      cases hc
      exact .inl ⟨⟨before, f, after, rfl, hblank, htaken,
        fun x hx => hafter x (by simp [hx])⟩, fun x hx => hafter x (by simp [hx])⟩
  · rintro (⟨⟨before, f, after, rfl, hblank, htaken, hafter⟩, hc⟩ | ⟨f, rfl, hblank, htaken⟩)
    · refine ⟨before, f, after ++ [c], by simp, hblank, htaken, fun x hx => ?_⟩
      obtain hx | hx := List.mem_append.1 hx
      · exact hafter x hx
      · exact hc x (List.mem_singleton.1 hx).symm
    · exact ⟨cs, f, [], rfl, hblank, htaken, nofun⟩

theorem blank_callAll {d : Draft} {a : Attribute} (hd : (d.content a).isBlank = false)
    (cs : List Call) : ((d.callAll cs).content a).isBlank = true ↔ d.InheritsBlank a cs := by
  induction cs using List.reverseRecOn with
  | nil =>
    refine iff_of_false (fun h => Bool.false_ne_true (hd.symm.trans h)) ?_
    rintro ⟨before, f, after, hcs, -⟩
    exact List.append_ne_nil_of_right_ne_nil before (List.cons_ne_nil _ _) hcs.symm
  | append_singleton cs c ih =>
    rw [callAll_append, inheritsBlank_append, ← ih]
    cases c with
    | set x => simpa [callAll, call] using (d.callAll cs).blank_set a x
    | inherit f => simpa [callAll, call] using (d.callAll cs).blank_inherit a f

theorem not_blank_of_new {start : Draft} (h : start ∈ [cacheable, put, evict]) (a : Attribute) :
    (start.content a).isBlank = false := by
  simp only [List.mem_cons, List.not_mem_nil, or_false] at h
  cases a with
  | special b => obtain rfl | rfl | rfl := h <;> cases b <;> rfl
  | _ => obtain rfl | rfl | rfl := h <;> rfl

/-- Whatever is done to a new draft before it is built: no text of the operation is blank unless it
    was inherited, so that key, condition and veto never are. An attribute is blank if and only if
    it was taken over blank from the defaults of a type and was not set after that. -/
theorem blank_iff_inherited {start : Draft} (hstart : start ∈ [cacheable, put, evict])
    (cs : List Call) {o : Operation} (ho : (start.callAll cs).build = .ok o) :
    (∀ a, (∀ f, .inherit f ∈ cs → (f.content a).isBlank = false) →
      ∀ s, o.content a = .text (some s) → ∃ c ∈ s.toList, Text.isSpace c = false) ∧
    (∀ a ∈ [.key, .condition, .special .unless_], ∀ s, o.content a = .text (some s) →
      ∃ c ∈ s.toList, Text.isSpace c = false) ∧
    ∀ a, (o.content a).isBlank = true ↔ start.InheritsBlank a cs := by
  have hblank : ∀ a, (o.content a).isBlank = true ↔ start.InheritsBlank a cs := by
    intro a
    rw [← blank_callAll (not_blank_of_new hstart a) cs, ← operation_of_build ho]
    rfl
  have hread : ∀ a, (∀ f, .inherit f ∈ cs → (f.content a).isBlank = false) →
      ∀ s, o.content a = .text (some s) → ∃ c ∈ s.toList, Text.isSpace c = false := by
    intro a hdefaults s hs
    have hnot : (o.content a).isBlank = false := by
      refine Bool.eq_false_iff.2 fun h => ?_
      obtain ⟨before, f, after, rfl, hf, -⟩ := (hblank a).1 h
      exact Bool.false_ne_true ((hdefaults f (by simp)).symm.trans hf)
    rw [hs] at hnot
    simpa [Content.isBlank, Text.isBlank] using hnot
  refine ⟨hread, fun a ha => hread a fun f _ => ?_, hblank⟩
  simp only [List.mem_cons, List.not_mem_nil, or_false] at ha
  obtain rfl | rfl | rfl := ha <;> rfl

def retaken : List Call :=
  [.inherit ⟨[], some " ", none, none⟩, .set (.keyGenerator "\t"), .set (.condition "#item != null"),
    .inherit ⟨["prices"], some "byItem", none, some "remote"⟩]

theorem blank_iff_inherited_retaken :
    (∃ c ∈ "remote".toList, Text.isSpace c = false) ∧
      (∃ c ∈ "#item != null".toList, Text.isSpace c = false) ∧
      ¬ cacheable.InheritsBlank .keyGenerator retaken := by
  have hstart : cacheable ∈ [cacheable, put, evict] := List.mem_cons_self
  have hbuilt : (cacheable.callAll retaken).build = .ok (cacheable.callAll retaken).operation := by
    decide +kernel
  obtain ⟨hread, hown, hblank⟩ := blank_iff_inherited hstart retaken hbuilt
  refine ⟨hread .resolver (fun f hf => ?_) "remote" (by decide +kernel),
    hown .condition (by decide) "#item != null" (by decide +kernel), fun h => ?_⟩
  · simp only [retaken, List.mem_cons, Call.inherit.injEq, reduceCtorEq, List.not_mem_nil,
      or_false, false_or] at hf
    obtain rfl | rfl := hf <;> decide +kernel
  · have hgenerator := (hblank .keyGenerator).2 h
    revert hgenerator
    decide +kernel

/-- A type may provide a blank key generator, which is then that of its operations. -/
theorem blank_generator :
    ∃ o, (cacheable.callAll [.set (.cacheNames ["prices"]),
        .inherit ⟨[], some " ", none, none⟩]).build = .ok o ∧
      o.content .keyGenerator = .text (some " ") ∧ ∀ c ∈ " ".toList, Text.isSpace c = true :=
  ⟨(cacheable.callAll [.set (.cacheNames ["prices"]), .inherit ⟨[], some " ", none, none⟩]).operation,
    by decide +kernel, by decide +kernel, List.all_eq_true.1 (by decide +kernel)⟩

end Draft

end CachedCalls
