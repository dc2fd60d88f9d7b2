import CachedCalls.Execution.Component
import CachedCalls.Proofs.Operation.Description

/-!
When operations are known by their descriptions. The texts of a description stand between marks that
are not set apart from the texts, so that one which holds a mark can be read in two ways. Where the
texts lack the marks that follow them (`Legible`), a description says everything about an operation
that was built, and what is kept for an operation is its own.
-/

set_option autoImplicit false

namespace CachedCalls

/-! Texts before marks. -/

def IsMark (d : List Char) : Prop := ∃ c ds, d = c :: ds ∧ c ∉ ds

theorem append_mark_inj {d x y u v : List Char} (hd : IsMark d) (hx : ¬ d <:+: x) (hy : ¬ d <:+: y)
    (h : x ++ (d ++ u) = y ++ (d ++ v)) : x = y ∧ u = v := by
  obtain ⟨c, ds, rfl, hc⟩ := hd
  have hearly {a : Char} {z p q : List Char} (hz : ¬ (c :: ds) <:+: a :: z)
      (h : c :: (ds ++ p) = a :: (z ++ (c :: ds ++ q))) : False := by
    obtain ⟨rfl, htail⟩ := List.cons.inj h
    obtain ⟨e, he, -⟩ | ⟨e, he, he'⟩ := List.append_eq_append_iff.1 htail
    · exact hz ⟨[], e, by rw [he]; rfl⟩
    · cases e with
      | nil => exact hz ⟨[], [], by rw [he, List.append_nil, List.nil_append, List.append_nil]⟩
      | cons a e =>
        obtain ⟨rfl, -⟩ := List.cons.inj he'
        exact hc (he ▸ List.mem_append_right z List.mem_cons_self)
  induction x generalizing y with
  | nil =>
    cases y with
    | nil => exact ⟨rfl, List.append_cancel_left h⟩
    | cons b y => exact (hearly hy h).elim
  | cons a x ih =>
    cases y with
    | nil => exact (hearly hx h.symm).elim
    | cons b y =>
      obtain ⟨rfl, htail⟩ := List.cons.inj h
      obtain ⟨rfl, huv⟩ := ih (fun hi => hx (hi.trans (List.suffix_cons a x).isInfix))
        (fun hi => hy (hi.trans (List.suffix_cons a y).isInfix)) htail
      exact ⟨rfl, huv⟩

theorem infix_intercalate (d x y : List Char) (zs : List (List Char)) :
    d <:+: d.intercalate (x :: y :: zs) := by
  rw [List.intercalate_cons_cons]
  exact ⟨x, d.intercalate (y :: zs), rfl⟩

theorem intercalate_cons_inj {d : List Char} (hd : IsMark d) {x y : List Char}
    {xs ys : List (List Char)} (hxs : ∀ t ∈ x :: xs, ¬ d <:+: t) (hys : ∀ t ∈ y :: ys, ¬ d <:+: t)
    (h : d.intercalate (x :: xs) = d.intercalate (y :: ys)) : x :: xs = y :: ys := by
  induction xs generalizing x y ys with
  | nil =>
    rw [List.intercalate_singleton] at h
    cases ys with
    | nil => rw [h, List.intercalate_singleton]
    | cons y' ys => exact absurd (h ▸ infix_intercalate d y y' ys) (hxs x List.mem_cons_self)
  | cons x' xs ih =>
    cases ys with
    | nil =>
      rw [List.intercalate_singleton] at h
      exact absurd (h ▸ infix_intercalate d x x' xs) (hys y List.mem_cons_self)
    | cons y' ys =>
      rw [List.intercalate_cons_cons, List.intercalate_cons_cons, List.append_assoc,
        List.append_assoc] at h
      obtain ⟨hx, hxs'⟩ := List.forall_mem_cons.1 hxs
      obtain ⟨hy, hys'⟩ := List.forall_mem_cons.1 hys
      obtain ⟨rfl, htail⟩ := append_mark_inj hd hx hy h
      rw [ih hxs' hys' htail]

theorem intercalate_inj {d : List Char} (hd : IsMark d) {xs ys : List (List Char)}
    (hxs : ∀ t ∈ xs, ¬ d <:+: t) (hys : ∀ t ∈ ys, ¬ d <:+: t) (hx : xs ≠ [[]]) (hy : ys ≠ [[]])
    (h : d.intercalate xs = d.intercalate ys) : xs = ys := by
  have hnil {ts : List (List Char)} (ht : ts ≠ [[]]) (h : d.intercalate ts = []) : ts = [] := by
    match ts with
    | [] => rfl
    | [t] =>
      rw [List.intercalate_singleton] at h
      exact absurd (congrArg (fun t => [t]) h) ht
    | t :: t' :: ts =>
      obtain ⟨c, ds, rfl, -⟩ := hd
      cases List.infix_nil.1 (h ▸ infix_intercalate (c :: ds) t t' ts)
  cases xs with
  | nil => exact (hnil hy h.symm).symm
  | cons x xs =>
    cases ys with
    | nil => exact hnil hx h
    | cons y ys => exact intercalate_cons_inj hd hxs hys h

/-! Operations that were built. -/

theorem Text.nonBlank_ne_empty (s : String) : nonBlank s ≠ some "" := by
  intro h
  obtain ⟨hs, rfl⟩ := (nonBlank_eq_some_iff s "").1 h
  cases hs

namespace Draft

/-- What settings and inheritance make of an empty draft. -/
inductive Made : Draft → Prop where
  | cacheable : Made cacheable
  | put : Made put
  | evict : Made evict
  | set {d : Draft} (hd : Made d) (x : Setting) : Made (d.set x)
  | inherit {d : Draft} (hd : Made d) (f : Defaults) : Made (d.inherit f)

structure Filled (d : Draft) : Prop where
  key : d.key ≠ some ""
  condition : d.condition ≠ some ""
  veto : d.kind.veto ≠ some ""

theorem Filled.set {d : Draft} (hd : d.Filled) (x : Setting) : (d.set x).Filled := by
  obtain ⟨hkey, hcondition, hveto⟩ := hd
  cases x with
  | key s => exact ⟨Text.nonBlank_ne_empty s, hcondition, hveto⟩
  | condition s => exact ⟨hkey, Text.nonBlank_ne_empty s, hveto⟩
  | unless_ s =>
    unfold Draft.set
    cases hk : d.kind with
    | evict a b => exact ⟨hkey, hcondition, hveto⟩
    | _ => exact ⟨hkey, hcondition, Text.nonBlank_ne_empty s⟩
  | sync b | allEntries b | beforeInvocation b =>
    unfold Draft.set
    cases hk : d.kind <;> rw [hk] at hveto <;> first
      | exact ⟨hkey, hcondition, hveto⟩
      | exact ⟨hkey, hcondition, by simpa [misused, hk] using hveto⟩
  | _ => exact ⟨hkey, hcondition, hveto⟩

theorem Made.filled {d : Draft} (hd : d.Made) : d.Filled := by
  induction hd with
  | cacheable | put | evict => exact ⟨by decide, by decide, by decide⟩
  | set _ x ih => exact ih.set x
  | inherit _ f ih => exact ⟨ih.key, ih.condition, ih.veto⟩

end Draft

namespace Operation

/-- The operation comes from a draft. -/
def Built (o : Operation) : Prop := ∃ d : Draft, d.Made ∧ d.build = .ok o

theorem Built.filled {o : Operation} (ho : o.Built) :
    o.key ≠ some "" ∧ o.condition ≠ some "" ∧ o.kind.veto ≠ some "" := by
  obtain ⟨d, hd, hbuild⟩ := ho
  have hfilled := hd.filled
  unfold Draft.build at hbuild
  split at hbuild
  · cases hbuild
  · split at hbuild
    · cases hbuild
    · split at hbuild
      · cases hbuild
      · cases hbuild
        exact ⟨hfilled.key, hfilled.condition, hfilled.veto⟩

end Operation

/-! What every description tells. -/

def OperationKind.bare : OperationKind → OperationKind
  | cacheable _ s => .cacheable none s
  | put _ => .put none
  | evict a b => .evict a b

namespace OperationKind

theorem label_bare (k : OperationKind) : k.bare.label = k.label := by cases k <;> rfl

theorem bare_of_evict {k : OperationKind} (hk : k.label = "Evict") : k.bare = k := by
  cases k with
  | cacheable | put => simp [label] at hk
  | evict => rfl

theorem eq_of_bare {k k' : OperationKind} (h : k.bare = k'.bare) (hveto : k.veto = k'.veto) :
    k = k' := by
  cases k <;> cases k' <;> cases h <;> cases hveto <;> rfl

def afterVeto : OperationKind → List Char
  | cacheable _ s => "'".toList ++ (" | sync='".toList ++ ((boolText s).toList ++ "'".toList))
  | put _ => "'".toList
  | evict _ _ => []

theorem text_of_veto {k : OperationKind} (hk : k.label ≠ "Evict") :
    "'".toList ++ k.text.toList =
      "' | unless=".toList ++ ("'".toList ++ ((k.veto.getD "").toList ++ k.bare.afterVeto)) := by
  cases k with
  | cacheable | put => simp [text, attributeText, veto, bare, afterVeto]
  | evict => exact absurd rfl hk

end OperationKind

theorem append_boolText_inj {x y : List Char} {a b : Bool}
    (h : x ++ (boolText a).toList = y ++ (boolText b).toList) : x = y ∧ a = b := by
  have hletter (z : List Char) (c : Bool) :
      (z ++ (boolText c).toList).reverse[1]? = some (if c then 'u' else 's') := by
    cases c <;> simp [boolText]
  have hab : (if a then 'u' else 's') = if b then 'u' else 's' :=
    Option.some.inj ((hletter x a).symm.trans ((congrArg (·.reverse[1]?) h).trans (hletter y b)))
  obtain rfl : a = b := by
    cases a <;> cases b <;> first | rfl | exact absurd hab (by decide)
  exact ⟨List.append_cancel_right h, rfl⟩

namespace Operation

theorem bare_of_description {a b : Operation} (h : a.description = b.description) :
    a.kind.bare = b.kind.bare := by
  have hhead : a.kind.label.toList.head? = b.kind.label.toList.head? := by
    rw [← description_head, ← description_head, h]
  have hsync := isSync_of_description h
  cases ha : a.kind with
  | cacheable u s =>
    cases hb : b.kind with
    | cacheable u' s' => rw [ha, hb] at hsync; exact congrArg (OperationKind.cacheable none) hsync
    | _ => simp [ha, hb, OperationKind.label] at hhead
  | put u =>
    cases hb : b.kind with
    | put u' => rfl
    | _ => simp [ha, hb, OperationKind.label] at hhead
  | evict x y =>
    cases hb : b.kind with
    | evict x' y' =>
      have hlist := congrArg String.toList h
      simp only [description_eq, ha, hb, OperationKind.text, String.toList_append,
        ← List.append_assoc] at hlist
      obtain ⟨hrest, rfl⟩ := append_boolText_inj hlist
      obtain ⟨-, rfl⟩ := append_boolText_inj (List.append_cancel_right hrest)
      rfl
    | _ => simp [ha, hb, OperationKind.label] at hhead

/-! Operations whose texts can be told apart. -/

/-- No text of the operation holds the mark that its description has after it, and no text that is
    set is empty. -/
structure Legible (o : Operation) : Prop where
  name : ¬ "] caches=[".toList <:+: o.name.toList
  caches : ¬ "] | key='".toList <:+: (", ".intercalate o.cacheNames).toList
  apart : ∀ n ∈ o.cacheNames, ¬ ", ".toList <:+: n.toList
  named : o.cacheNames ≠ [""]
  key : ¬ "' | keyGenerator=".toList <:+: (o.key.getD "").toList
  keyGenerator : ¬ "' | cacheManager=".toList <:+: (o.keyGenerator.getD "").toList
  manager : ¬ "' | cacheResolver=".toList <:+: (o.manager.getD "").toList
  resolver : ¬ "' | condition=".toList <:+: (o.resolver.getD "").toList
  condition : o.kind.label ≠ "Evict" → ¬ "' | unless=".toList <:+: (o.condition.getD "").toList
  filled : o.keyGenerator ≠ some "" ∧ o.manager ≠ some "" ∧ o.resolver ≠ some ""

theorem toList_intercalate_inj {xs ys : List String}
    (hxs : ∀ n ∈ xs, ¬ ", ".toList <:+: n.toList) (hys : ∀ n ∈ ys, ¬ ", ".toList <:+: n.toList)
    (hx : xs ≠ [""]) (hy : ys ≠ [""])
    (h : (", ".intercalate xs).toList = (", ".intercalate ys).toList) : xs = ys := by
  have hinj {ns ps : List String} : ns.map String.toList = ps.map String.toList → ns = ps :=
    (List.map_inj_right fun _ _ => String.toList_inj.1).1
  have hmark : IsMark ", ".toList := ⟨_, _, rfl, by decide⟩
  rw [String.toList_intercalate, String.toList_intercalate] at h
  refine hinj (intercalate_inj hmark (List.forall_mem_map.2 hxs) (List.forall_mem_map.2 hys) ?_ ?_ h)
  · exact fun he => hx (hinj (he : xs.map String.toList = [""].map String.toList))
  · exact fun he => hy (hinj (he : ys.map String.toList = [""].map String.toList))

theorem getD_empty_inj {u v : Option String} (hu : u ≠ some "") (hv : v ≠ some "")
    (h : (u.getD "").toList = (v.getD "").toList) : u = v := by
  have h : u.getD "" = v.getD "" := String.toList_inj.1 h
  cases u with
  | none =>
    cases v with
    | none => rfl
    | some y => exact absurd (congrArg some h.symm) hv
  | some x =>
    cases v with
    | none => exact absurd (congrArg some h) hu
    | some y => exact congrArg some h

theorem toList_description (o : Operation) :
    o.description.toList = o.kind.label.toList ++ ("[".toList ++ (o.name.toList ++
      ("] caches=[".toList ++ ((", ".intercalate o.cacheNames).toList ++
      ("] | key='".toList ++ ((o.key.getD "").toList ++
      ("' | keyGenerator=".toList ++ ("'".toList ++ ((o.keyGenerator.getD "").toList ++
      ("' | cacheManager=".toList ++ ("'".toList ++ ((o.manager.getD "").toList ++
      ("' | cacheResolver=".toList ++ ("'".toList ++ ((o.resolver.getD "").toList ++
      ("' | condition=".toList ++ ("'".toList ++ ((o.condition.getD "").toList ++
      ("'".toList ++ o.kind.text.toList))))))))))))))))))) := by
  simp [description, attributeText]

theorem condition_veto_inj {a b : Operation} (hbare : a.kind.bare = b.kind.bare)
    (ha : a.Legible) (hb : b.Legible)
    (h : (a.condition.getD "").toList ++ ("'".toList ++ a.kind.text.toList) =
      (b.condition.getD "").toList ++ ("'".toList ++ b.kind.text.toList)) :
    (a.condition.getD "").toList = (b.condition.getD "").toList ∧
      (a.kind.veto.getD "").toList = (b.kind.veto.getD "").toList := by
  have hlabel : a.kind.label = b.kind.label := by
    rw [← a.kind.label_bare, hbare, b.kind.label_bare]
  by_cases hevict : a.kind.label = "Evict"
  · have hka := OperationKind.bare_of_evict hevict
    have hkb := OperationKind.bare_of_evict (hlabel.symm.trans hevict)
    rw [← hka, ← hkb, hbare] at h ⊢
    exact ⟨List.append_cancel_right h, rfl⟩
  · have hevict' : b.kind.label ≠ "Evict" := fun he => hevict (hlabel.trans he)
    rw [OperationKind.text_of_veto hevict, OperationKind.text_of_veto hevict', hbare] at h
    obtain ⟨hc, htail⟩ := append_mark_inj ⟨_, _, rfl, by decide⟩ (ha.condition hevict)
      (hb.condition hevict') h
    exact ⟨hc, List.append_cancel_right (List.append_cancel_left htail)⟩

theorem eq_of_description {a b : Operation} (ha : a.Built) (hb : b.Built) (hla : a.Legible)
    (hlb : b.Legible) (h : a.description = b.description) : a = b := by
  have hbare := bare_of_description h
  have hlabel : a.kind.label = b.kind.label := by
    rw [← a.kind.label_bare, hbare, b.kind.label_bare]
  have hlist := congrArg String.toList h
  rw [toList_description, toList_description, hlabel] at hlist
  have hlist := List.append_cancel_left (List.append_cancel_left hlist)
  obtain ⟨hname, hlist⟩ := append_mark_inj ⟨_, _, rfl, by decide⟩ hla.name hlb.name hlist
  obtain ⟨hcaches, hlist⟩ := append_mark_inj ⟨_, _, rfl, by decide⟩ hla.caches hlb.caches hlist
  obtain ⟨hkey, hlist⟩ := append_mark_inj ⟨_, _, rfl, by decide⟩ hla.key hlb.key hlist
  obtain ⟨hgenerator, hlist⟩ := append_mark_inj ⟨_, _, rfl, by decide⟩ hla.keyGenerator
    hlb.keyGenerator (List.append_cancel_left hlist)
  obtain ⟨hmanager, hlist⟩ := append_mark_inj ⟨_, _, rfl, by decide⟩ hla.manager hlb.manager
    (List.append_cancel_left hlist)
  obtain ⟨hresolver, hlist⟩ := append_mark_inj ⟨_, _, rfl, by decide⟩ hla.resolver hlb.resolver
    (List.append_cancel_left hlist)
  obtain ⟨hcondition, hveto⟩ := condition_veto_inj hbare hla hlb (List.append_cancel_left hlist)
  obtain ⟨hka, hca, hva⟩ := ha.filled
  obtain ⟨hkb, hcb, hvb⟩ := hb.filled
  obtain ⟨hga, hma, hra⟩ := hla.filled
  obtain ⟨hgb, hmb, hrb⟩ := hlb.filled
  have hkind := OperationKind.eq_of_bare hbare (getD_empty_inj hva hvb hveto)
  have hcaches := toList_intercalate_inj hla.apart hlb.apart hla.named hlb.named hcaches
  have hname := String.toList_inj.1 hname
  have hkey := getD_empty_inj hka hkb hkey
  have hgenerator := getD_empty_inj hga hgb hgenerator
  have hmanager := getD_empty_inj hma hmb hmanager
  have hresolver := getD_empty_inj hra hrb hresolver
  have hcondition := getD_empty_inj hca hcb hcondition
  cases a
  cases b
  simp only at hname hcaches hkey hgenerator hmanager hresolver hcondition hkind
  rw [hname, hcaches, hkey, hgenerator, hmanager, hresolver, hcondition, hkind]

end Operation

/-! What is kept for operations. -/

namespace MetadataMemo

/-- What an empty memo comes to by requests for operations of some sort, whatever the wiring is by
    then, on whatever methods and types. -/
inductive Asked (P : Operation → Prop) : MetadataMemo → Prop where
  | empty : Asked P []
  | ask {k : MetadataMemo} (hk : Asked P k) (w : Wiring) {o : Operation} (ho : P o) (m : Method)
      (t : TypeDecl) : Asked P (k.ask w o m t).2

theorem ask_mem {k : MetadataMemo} {w : Wiring} {o : Operation} {m : Method} {t : TypeDecl}
    {d : Metadata} (h : (k.ask w o m t).1 = .ok d) : d.operation = o ∨ ∃ e ∈ k, e.2 = d := by
  unfold ask at h
  cases hf : k.find? o (m.element t) with
  | some d' =>
    rw [hf] at h
    cases h
    obtain ⟨e, he, rfl⟩ := Option.map_eq_some_iff.1 hf
    exact .inr ⟨e, List.mem_of_find?_eq_some he, rfl⟩
  | none =>
    rw [hf] at h
    cases hm : w.metadata o m t with
    | error f => rw [hm] at h; cases h
    | ok d' =>
      rw [hm] at h
      cases h
      exact .inl (Wiring.metadata_operation hm)

theorem mem_ask {k : MetadataMemo} {w : Wiring} {o : Operation} {m : Method} {t : TypeDecl}
    {e : Element × Metadata} (h : e ∈ (k.ask w o m t).2) : e.2.operation = o ∨ e ∈ k := by
  unfold ask at h
  cases hf : k.find? o (m.element t) with
  | some d' => rw [hf] at h; exact .inr h
  | none =>
    rw [hf] at h
    cases hm : w.metadata o m t with
    | error f => rw [hm] at h; exact .inr h
    | ok d' =>
      rw [hm] at h
      cases List.mem_cons.1 h with
      | inl he => rw [he]; exact .inl (Wiring.metadata_operation hm)
      | inr he => exact .inr he

theorem Asked.kept {P : Operation → Prop} {k : MetadataMemo} (hk : k.Asked P) :
    ∀ e ∈ k, P e.2.operation := by
  induction hk with
  | empty => exact fun _ he => (nomatch he)
  | ask _ w ho m t ih =>
    intro e he
    obtain heq | he := mem_ask he
    · exact heq ▸ ho
    · exact ih e he

theorem Asked.operation {P : Operation → Prop}
    (hP : ∀ a b : Operation, P a → P b → a.description = b.description → a = b) {k : MetadataMemo}
    (hk : k.Asked P) {w : Wiring} {o : Operation} (ho : P o) {m : Method} {t : TypeDecl}
    {d : Metadata} (h : (k.ask w o m t).1 = .ok d) : d.operation = o := by
  obtain heq | ⟨e, he, rfl⟩ := ask_mem h
  · exact heq
  · exact hP _ _ (hk.kept e he) ho (ask_description h)

end MetadataMemo

/-- Built operations with one description are of one kind with the same flags. Legible ones are the
    same exactly if their descriptions are, which is when they count as one; and however many legible
    ones a memo was asked for, it answers each with what belongs to it. -/
theorem operations_told (a b : Operation) (ha : a.Built) (hb : b.Built) :
    (a.description = b.description → a.kind.bare = b.kind.bare) ∧
      (a.Legible → b.Legible →
        (a.description = b.description ↔ a = b) ∧ (a.sameAs b = true ↔ a = b)) ∧
      ∀ (k : MetadataMemo), k.Asked (fun o => o.Built ∧ o.Legible) → a.Legible →
        ∀ (w : Wiring) (m : Method) (t : TypeDecl) (d : Metadata),
          (k.ask w a m t).1 = .ok d → d.operation = a := by
  refine ⟨Operation.bare_of_description, fun hla hlb => ?_, fun k hk hla w m t d hask => ?_⟩
  · have hiff : a.description = b.description ↔ a = b :=
      ⟨Operation.eq_of_description ha hb hla hlb, fun h => by rw [h]⟩
    exact ⟨hiff, beq_iff_eq.trans hiff⟩
  · have hinj (o p : Operation) (ho : o.Built ∧ o.Legible) (hp : p.Built ∧ p.Legible) :
        o.description = p.description → o = p :=
      Operation.eq_of_description ho.1 hp.1 ho.2 hp.2
    exact hk.operation hinj ⟨ha, hla⟩ hask

def readCaches (ns : List String) : Operation :=
  ⟨"", ns, none, none, none, none, none, .cacheable none false⟩

theorem readCaches_built {ns : List String} (hns : distinct ns = ns) : (readCaches ns).Built :=
  ⟨Draft.cacheable.set (.cacheNames ns), .set .cacheable _, by
    rw [Draft.set, hns]
    rfl⟩

def askedSecond (a b : Operation) : Except ConfigFault Metadata :=
  let m := ({ name := "price" } : MethodDraft).on "Shop"
  let t := TypeDecl.ofClass "Shop" none [] []
  let w : Wiring := { resolver := { manager := none } }
  ((MetadataMemo.ask [] w a m t).2.ask w b m t).1

theorem operations_told_caches :
    (readCaches ["prices", "offers"]).description ≠ (readCaches ["offers"]).description ∧
      ∃ d, askedSecond (readCaches ["prices", "offers"]) (readCaches ["offers"]) = .ok d ∧
        d.operation = readCaches ["offers"] := by
  have hboth : (readCaches ["prices", "offers"]).Built ∧ (readCaches ["prices", "offers"]).Legible :=
    ⟨readCaches_built (by decide +kernel), by constructor <;> decide +kernel⟩
  have hone : (readCaches ["offers"]).Built ∧ (readCaches ["offers"]).Legible :=
    ⟨readCaches_built (by decide +kernel), by constructor <;> decide +kernel⟩
  obtain ⟨-, htold, hmemo⟩ := operations_told (readCaches ["offers"])
    (readCaches ["prices", "offers"]) hone.1 hboth.1
  refine ⟨fun h => ?_, ?_⟩
  · have heq := (htold hone.2 hboth.2).1.1 h.symm
    exact absurd heq (by decide +kernel)
  · have hsome : (askedSecond (readCaches ["prices", "offers"])
        (readCaches ["offers"])).toOption.isSome = true := by decide +kernel
    cases hask : askedSecond (readCaches ["prices", "offers"]) (readCaches ["offers"]) with
    | error f => rw [hask] at hsome; cases hsome
    | ok d =>
      exact ⟨d, rfl, hmemo _ (.ask .empty _ hboth _ _) hone.2 _ _ _ d hask⟩

/-- A name that holds what stands between two names is taken for them: the memo answers the second
    read with what it keeps for the first. -/
theorem operations_told_joined :
    (readCaches ["prices", "offers"]).Built ∧ (readCaches ["prices, offers"]).Built ∧
      readCaches ["prices", "offers"] ≠ readCaches ["prices, offers"] ∧
      (readCaches ["prices", "offers"]).description = (readCaches ["prices, offers"]).description ∧
      (askedSecond (readCaches ["prices", "offers"])
        (readCaches ["prices, offers"])).toOption.map (·.operation) =
          some (readCaches ["prices", "offers"]) :=
  ⟨readCaches_built (by decide +kernel), readCaches_built (by decide +kernel), by decide +kernel,
    by decide +kernel, by decide +kernel⟩

end CachedCalls
