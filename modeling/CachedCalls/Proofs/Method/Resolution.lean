import Mathlib.Data.List.Nodup
import Mathlib.Logic.Relation
import CachedCalls.Method.Hierarchy

/-!
What a type has of the methods of those it descends from. The walk among interfaces passes over a
name that it has met, which loses nothing where names are unique: by the end of the walk everything
that was met has all its interfaces met (`Walk.closed`).
-/

set_option autoImplicit false

namespace CachedCalls

open Relation

/-- Types made one after the other, each of those there are, and no two of one name. -/
inductive Hierarchy : List TypeDecl → Prop where
  | nil : Hierarchy []
  | object {ts : List TypeDecl} : Hierarchy ts → objectName ∉ ts.map (·.name) →
      Hierarchy (.object :: ts)
  | ofClass {ts : List TypeDecl} {n : String} {parent : Option TypeDecl} {is : List TypeDecl}
      (ms : List MethodDraft) : Hierarchy ts → n ∉ ts.map (·.name) → parent.getD .object ∈ ts →
      is ⊆ ts → Hierarchy (.ofClass n parent is ms :: ts)
  | ofInterface {ts : List TypeDecl} {n : String} {is : List TypeDecl} (ms : List MethodDraft) :
      Hierarchy ts → n ∉ ts.map (·.name) → is ⊆ ts → Hierarchy (.ofInterface n is ms :: ts)

/-- Whatever a type has among its interfaces is one. -/
def ImplementsInterfaces (ts : List TypeDecl) : Prop :=
  ∀ t ∈ ts, ∀ i ∈ t.interfaces, i.isInterface = true

instance (ts : List TypeDecl) : Decidable (ImplementsInterfaces ts) :=
  inferInstanceAs (Decidable (∀ t ∈ ts, ∀ i ∈ t.interfaces, i.isInterface = true))

namespace TypeDecl

def Extends (t u : TypeDecl) : Prop := t.parent = some u

def Implements (t u : TypeDecl) : Prop := u ∈ t.interfaces

def Above (t u : TypeDecl) : Prop := t.Extends u ∨ t.Implements u

def Declares (s : Signature) (t : TypeDecl) : Prop := ∃ m ∈ t.methods, m.signature = s

/-- The first method with this signature that the type declares. -/
def First (s : Signature) (t : TypeDecl) (m : Method) : Prop :=
  ∃ ms ns, t.methods = ms ++ m :: ns ∧ m.signature = s ∧ ∀ d ∈ ms, d.signature ≠ s

/-- The first method with this signature on the nearest type up the chain that declares one. -/
inductive Nearest (s : Signature) : TypeDecl → Method → Prop where
  | own {t : TypeDecl} {m : Method} : First s t m → Nearest s t m
  | inherited {t u : TypeDecl} {m : Method} : ¬ Declares s t → t.Extends u → Nearest s u m →
      Nearest s t m

end TypeDecl

open TypeDecl

variable {ts : List TypeDecl} {t u : TypeDecl} {s : Signature} {m : Method}

/-! What the making of types keeps. -/

namespace Hierarchy

theorem closed (h : Hierarchy ts) (ht : t ∈ ts) (hu : t.Above u) : u ∈ ts := by
  induction h with
  | nil => cases ht
  | object _ _ ih =>
    obtain rfl | ht := List.mem_cons.1 ht
    · rcases hu with hu | hu <;> cases hu
    · exact List.mem_cons_of_mem _ (ih ht)
  | ofClass ms _ _ hparent his ih =>
    obtain rfl | ht := List.mem_cons.1 ht
    · rcases hu with hu | hu
      · cases hu
        exact List.mem_cons_of_mem _ hparent
      · exact List.mem_cons_of_mem _ (his hu)
    · exact List.mem_cons_of_mem _ (ih ht)
  | ofInterface ms _ _ his ih =>
    obtain rfl | ht := List.mem_cons.1 ht
    · rcases hu with hu | hu
      · cases hu
      · exact List.mem_cons_of_mem _ (his hu)
    · exact List.mem_cons_of_mem _ (ih ht)

theorem closed_all (h : Hierarchy ts) (ht : t ∈ ts) (hu : ReflTransGen Above t u) : u ∈ ts := by
  induction hu with
  | refl => exact ht
  | tail _ hstep ih => exact h.closed ih hstep

theorem names_nodup (h : Hierarchy ts) : (ts.map (·.name)).Nodup := by
  induction h with
  | nil => exact List.nodup_nil
  | object _ hn ih => exact List.nodup_cons.2 ⟨hn, ih⟩
  | ofClass _ _ hn _ _ ih => exact List.nodup_cons.2 ⟨hn, ih⟩
  | ofInterface _ _ hn _ ih => exact List.nodup_cons.2 ⟨hn, ih⟩

theorem eq_of_name (h : Hierarchy ts) (ht : t ∈ ts) (hu : u ∈ ts) (hn : t.name = u.name) :
    t = u :=
  List.inj_on_of_nodup_map h.names_nodup ht hu hn

theorem declaringType (h : Hierarchy ts) (ht : t ∈ ts) (hm : m ∈ t.methods) :
    m.declaringType = t.name := by
  have hon {n : String} {ds : List MethodDraft} (hm : m ∈ ds.map (·.on n)) :
      m.declaringType = n := by
    obtain ⟨d, -, rfl⟩ := List.mem_map.1 hm
    rfl
  induction h with
  | nil => cases ht
  | object _ _ ih | ofClass _ _ _ _ _ ih | ofInterface _ _ _ _ ih =>
    obtain rfl | ht := List.mem_cons.1 ht
    · exact hon hm
    · exact ih ht

theorem parent_of_interface (h : Hierarchy ts) (ht : t ∈ ts) (hi : t.isInterface = true) :
    t.parent = none := by
  induction h with
  | nil => cases ht
  | object _ _ ih | ofClass _ _ _ _ _ ih =>
    obtain rfl | ht := List.mem_cons.1 ht
    · cases hi
    · exact ih ht
  | ofInterface _ _ _ _ ih =>
    obtain rfl | ht := List.mem_cons.1 ht
    · rfl
    · exact ih ht

end Hierarchy

namespace TypeDecl

/-! Descent. -/

mutual

theorem assignable_iff (n : String) (t : TypeDecl) :
    t.assignable n = true ↔ ∃ u, ReflTransGen Above t u ∧ u.name = n := by
  match t with
  | mk k i p is ms =>
    have hp := assignableAbove_iff n p
    have his := assignableAmong_iff n is
    rw [assignable, Bool.or_eq_true, Bool.or_eq_true, hp, his, beq_iff_eq]
    constructor
    · rintro (rfl | ⟨v, rfl, u, hu, hn⟩ | ⟨v, hv, u, hu, hn⟩)
      · exact ⟨_, .refl, rfl⟩
      · exact ⟨u, .head (.inl rfl) hu, hn⟩
      · exact ⟨u, .head (.inr hv) hu, hn⟩
    · rintro ⟨u, hu, hn⟩
      obtain rfl | ⟨v, hv | hv, hu⟩ := hu.cases_head
      · exact .inl hn
      · exact .inr (.inl ⟨v, hv, u, hu, hn⟩)
      · exact .inr (.inr ⟨v, hv, u, hu, hn⟩)

theorem assignableAbove_iff (n : String) (p : Option TypeDecl) :
    assignableAbove n p = true ↔
      ∃ t, p = some t ∧ ∃ u, ReflTransGen Above t u ∧ u.name = n := by
  match p with
  | none => simp [assignableAbove]
  | some t =>
    rw [assignableAbove, assignable_iff n t]
    simp

theorem assignableAmong_iff (n : String) (ts : List TypeDecl) :
    assignableAmong n ts = true ↔
      ∃ t ∈ ts, ∃ u, ReflTransGen Above t u ∧ u.name = n := by
  match ts with
  | [] => simp [assignableAmong]
  | t :: ts =>
    rw [assignableAmong, Bool.or_eq_true, assignable_iff n t, assignableAmong_iff n ts]
    simp

end

/-! The chain. -/

theorem declared?_eq_some_iff : t.declared? s = some m ↔ First s t m := by
  rw [declared?, List.find?_eq_some_iff_append]
  simp only [decide_eq_true_eq, Bool.not_eq_eq_eq_not, Bool.not_true, decide_eq_false_iff_not,
    First]
  exact ⟨fun ⟨hm, ms, ns, ht, hms⟩ => ⟨ms, ns, ht, hm, hms⟩,
    fun ⟨ms, ns, ht, hm, hms⟩ => ⟨hm, ms, ns, ht, hms⟩⟩

theorem declared?_eq_none_iff : t.declared? s = none ↔ ¬ Declares s t := by
  simp [declared?, Declares]

theorem First.mem (h : First s t m) : m ∈ t.methods := by
  obtain ⟨ms, ns, ht, -⟩ := h
  rw [ht]
  exact List.mem_append_right _ List.mem_cons_self

theorem First.signature_eq (h : First s t m) : m.signature = s := by
  obtain ⟨ms, ns, -, hm, -⟩ := h
  exact hm

theorem First.declares (h : First s t m) : Declares s t := ⟨m, h.mem, h.signature_eq⟩

mutual

theorem mem_chain_iff (t u : TypeDecl) : u ∈ t.chain ↔ ReflTransGen Extends t u := by
  match t with
  | mk n i p is ms =>
    rw [chain, List.mem_cons, mem_chainAbove_iff p u]
    constructor
    · rintro (rfl | ⟨v, rfl, hu⟩)
      · exact .refl
      · exact .head rfl hu
    · intro hu
      obtain rfl | ⟨v, hv, hu⟩ := hu.cases_head
      · exact .inl rfl
      · exact .inr ⟨v, hv, hu⟩

theorem mem_chainAbove_iff (p : Option TypeDecl) (u : TypeDecl) :
    u ∈ chainAbove p ↔ ∃ t, p = some t ∧ ReflTransGen Extends t u := by
  match p with
  | none => simp [chainAbove]
  | some t =>
    rw [chainAbove, mem_chain_iff t u]
    simp

end

mutual

theorem nearest_of_chain (t : TypeDecl) (h : t.chain.findSome? (·.declared? s) = some m) :
    Nearest s t m := by
  match t with
  | mk n i p is ms =>
    rw [chain, List.findSome?_cons] at h
    split at h
    · next hd =>
      cases h
      exact .own (declared?_eq_some_iff.1 hd)
    · next hd =>
      obtain ⟨u, hu, hm⟩ := nearest_of_chainAbove p h
      exact .inherited (declared?_eq_none_iff.1 hd) hu hm

theorem nearest_of_chainAbove (p : Option TypeDecl)
    (h : (chainAbove p).findSome? (·.declared? s) = some m) : ∃ u, p = some u ∧ Nearest s u m := by
  match p with
  | none => cases h
  | some t => exact ⟨t, rfl, nearest_of_chain t h⟩

end

theorem Nearest.first (h : Nearest s t m) : ∃ u, ReflTransGen Extends t u ∧ First s u m := by
  induction h with
  | own h => exact ⟨_, .refl, h⟩
  | inherited _ hu _ ih =>
    obtain ⟨v, hv, h⟩ := ih
    exact ⟨v, .head hu hv, h⟩

/-! The walk among interfaces. -/

/-- What comes of a walk from some types on, when some have been found before. -/
structure Walk (found roots all : List TypeDecl) : Prop where
  kept : found ⊆ all
  met : ∀ t ∈ roots, t.name ∈ all.map (·.name)
  closed : ∀ t ∈ all, t ∈ found ∨ ∀ i ∈ t.interfaces, i.name ∈ all.map (·.name)
  sound : ∀ u ∈ all, u ∈ found ∨ ∃ t ∈ roots, ReflTransGen Implements t u

namespace Walk

variable {found part all rs us : List TypeDecl}

theorem nil (found : List TypeDecl) : Walk found [] found :=
  ⟨List.Subset.refl _, nofun, fun _ => .inl, fun _ => .inl⟩

theorem append (h : Walk found rs part) (h' : Walk part us all) : Walk found (rs ++ us) all := by
  have hnames : part.map (·.name) ⊆ all.map (·.name) := List.map_subset _ h'.kept
  refine ⟨List.Subset.trans h.kept h'.kept, fun t ht => ?_, fun t ht => ?_, fun u hu => ?_⟩
  · rcases List.mem_append.1 ht with ht | ht
    · exact hnames (h.met t ht)
    · exact h'.met t ht
  · rcases h'.closed t ht with ht | ht
    · exact (h.closed t ht).imp_right fun h i hi => hnames (h i hi)
    · exact .inr ht
  · rcases h'.sound u hu with hu | ⟨t, ht, hu⟩
    · exact (h.sound u hu).imp_right fun ⟨t, ht, hu⟩ => ⟨t, List.mem_append_left _ ht, hu⟩
    · exact .inr ⟨t, List.mem_append_right _ ht, hu⟩

theorem enter (t : TypeDecl) (h : Walk (found ++ [t]) t.interfaces all) : Walk found [t] all := by
  have ht : t ∈ all := h.kept (List.mem_append_right _ List.mem_cons_self)
  refine ⟨fun u hu => h.kept (List.mem_append_left _ hu), fun u hu => ?_, fun u hu => ?_,
    fun u hu => ?_⟩
  · rw [List.mem_singleton.1 hu]
    exact List.mem_map_of_mem ht
  · rcases h.closed u hu with hu | hu
    · obtain hu | hu := List.mem_append.1 hu
      · exact .inl hu
      · rw [List.mem_singleton.1 hu]
        exact .inr h.met
    · exact .inr hu
  · rcases h.sound u hu with hu | ⟨i, hi, hu⟩
    · obtain hu | hu := List.mem_append.1 hu
      · exact .inl hu
      · exact .inr ⟨u, hu, .refl⟩
    · exact .inr ⟨t, List.mem_cons_self, .head hi hu⟩

end Walk

mutual

theorem visit_walk (found : List TypeDecl) (t : TypeDecl) : Walk found [t] (visit found t) := by
  match t with
  | mk n i p is ms =>
    unfold visit
    split
    · next h =>
      refine ⟨List.Subset.refl _, fun u hu => ?_, fun _ => .inl, fun _ => .inl⟩
      obtain ⟨v, hv, hn⟩ := List.any_eq_true.1 h
      rw [List.mem_singleton.1 hu]
      exact List.mem_map.2 ⟨v, hv, beq_iff_eq.1 hn⟩
    · exact .enter _ (visitAll_walk _ is)

theorem visitAll_walk (found ts : List TypeDecl) : Walk found ts (visitAll found ts) := by
  match ts with
  | [] => exact .nil found
  | t :: ts => exact (visit_walk found t).append (visitAll_walk (visit found t) ts)

end

theorem foldl_walk (found us : List TypeDecl) :
    Walk found (us.flatMap (·.interfaces))
      (us.foldl (fun found u => visitAll found u.interfaces) found) := by
  induction us generalizing found with
  | nil => exact .nil found
  | cons u us ih => exact (visitAll_walk found u.interfaces).append (ih _)

theorem allInterfaces_walk (t : TypeDecl) :
    Walk [] (t.chain.flatMap (·.interfaces)) t.allInterfaces :=
  foldl_walk [] t.chain

theorem above_of_extends (h : ReflTransGen Extends t u) : ReflTransGen Above t u :=
  ReflTransGen.mono (fun _ _ => Or.inl) t u h

theorem above_of_implements (h : ReflTransGen Implements t u) : ReflTransGen Above t u :=
  ReflTransGen.mono (fun _ _ => Or.inr) t u h

theorem above_of_mem_allInterfaces (h : u ∈ t.allInterfaces) : ReflTransGen Above t u := by
  obtain h | ⟨i, hi, hu⟩ := t.allInterfaces_walk.sound u h
  · cases h
  · obtain ⟨v, hv, hi⟩ := List.mem_flatMap.1 hi
    have hchain := above_of_extends ((mem_chain_iff t v).1 hv)
    exact (hchain.tail (.inr hi)).trans (above_of_implements hu)

section Closed

variable (hts : Hierarchy ts) (himpl : ImplementsInterfaces ts) (ht : t ∈ ts)

include hts ht

theorem mem_allInterfaces_of_met (hu : u ∈ ts) (h : u.name ∈ t.allInterfaces.map (·.name)) :
    u ∈ t.allInterfaces := by
  obtain ⟨v, hv, hn⟩ := List.mem_map.1 h
  have hvts := hts.closed_all ht (above_of_mem_allInterfaces hv)
  exact hts.eq_of_name hvts hu hn ▸ hv

include himpl

theorem isInterface_of_mem_allInterfaces (h : u ∈ t.allInterfaces) : u.isInterface = true := by
  obtain h | ⟨i, hi, hu⟩ := t.allInterfaces_walk.sound u h
  · cases h
  · obtain ⟨v, hv, hi⟩ := List.mem_flatMap.1 hi
    have hv := hts.closed_all ht (above_of_extends ((mem_chain_iff t v).1 hv))
    obtain rfl | ⟨w, hw, hu⟩ := hu.cases_tail
    · exact himpl v hv _ hi
    · have hw := hts.closed_all (hts.closed hv (.inr hi)) (above_of_implements hw)
      exact himpl w hw u hu

theorem reached (h : ReflTransGen Above t u) :
    ReflTransGen Extends t u ∨ u ∈ t.allInterfaces := by
  induction h with
  | refl => exact .inl .refl
  | @tail v u hv hstep ih =>
    have hvts : v ∈ ts := hts.closed_all ht hv
    have huts : u ∈ ts := hts.closed hvts hstep
    have hmet := mem_allInterfaces_of_met hts ht huts
    rcases ih with hv | hv
    · rcases hstep with hu | hu
      · exact .inl (hv.tail hu)
      · have hfrom := List.mem_flatMap.2 ⟨v, (mem_chain_iff t v).2 hv, hu⟩
        exact .inr (hmet (t.allInterfaces_walk.met u hfrom))
    · have hroot := hts.parent_of_interface hvts
        (isInterface_of_mem_allInterfaces hts himpl ht hv)
      rcases hstep with hu | hu
      · cases hroot.symm.trans hu
      · obtain h | h := t.allInterfaces_walk.closed v hv
        · cases h
        · exact .inr (hmet (h u hu))

end Closed

/-! Finding a method. -/

theorem find?_cases (h : t.find? s = some m) :
    Nearest s t m ∨ (∀ u, ReflTransGen Extends t u → ¬ Declares s u) ∧
      ∃ i ∈ t.allInterfaces, First s i m := by
  obtain h | ⟨hnone, h⟩ := Option.or_eq_some_iff.1 h
  · exact .inl (nearest_of_chain t h)
  · obtain ⟨i, hi, hm⟩ := List.exists_of_findSome?_eq_some h
    refine .inr ⟨fun u hu => ?_, i, hi, declared?_eq_some_iff.1 hm⟩
    exact declared?_eq_none_iff.1 (List.findSome?_eq_none_iff.1 hnone u ((mem_chain_iff t u).2 hu))

theorem find?_signature (h : t.find? s = some m) : m.signature = s := by
  obtain h | ⟨-, i, -, h⟩ := find?_cases h
  · obtain ⟨u, -, hu⟩ := h.first
    exact hu.signature_eq
  · exact h.signature_eq

theorem find?_above (h : t.find? s = some m) : ∃ u, ReflTransGen Above t u ∧ First s u m := by
  obtain h | ⟨-, i, hi, h⟩ := find?_cases h
  · obtain ⟨u, hu, hm⟩ := h.first
    exact ⟨u, above_of_extends hu, hm⟩
  · exact ⟨i, above_of_mem_allInterfaces hi, h⟩

theorem find?_isSome (hts : Hierarchy ts) (himpl : ImplementsInterfaces ts) (ht : t ∈ ts)
    (hu : ReflTransGen Above t u) (hs : Declares s u) : (t.find? s).isSome = true := by
  have hd : (u.declared? s).isSome = true :=
    Option.isSome_iff_ne_none.2 fun h => declared?_eq_none_iff.1 h hs
  rw [find?, Option.isSome_or, Bool.or_eq_true]
  rcases reached hts himpl ht hu with hu | hu
  · left
    rw [List.isSome_findSome?]
    exact List.any_eq_true.2 ⟨u, (mem_chain_iff t u).2 hu, hd⟩
  · right
    rw [List.isSome_findSome?]
    exact List.any_eq_true.2 ⟨u, hu, hd⟩

/-! The implementation of a method. -/

theorem mostSpecific_cases (t : TypeDecl) (m : Method) :
    t.mostSpecific m = m ∨ t.find? m.signature = some (t.mostSpecific m) := by
  unfold mostSpecific
  split
  · exact .inl rfl
  · cases t.find? m.signature with
    | none => exact .inl rfl
    | some n => exact .inr rfl

theorem mostSpecific_signature (t : TypeDecl) (m : Method) :
    (t.mostSpecific m).signature = m.signature := by
  obtain h | h := mostSpecific_cases t m
  · rw [h]
  · exact find?_signature h

theorem mostSpecific_mostSpecific (t : TypeDecl) (m : Method) :
    t.mostSpecific (t.mostSpecific m) = t.mostSpecific m := by
  obtain h | h := mostSpecific_cases t m
  · rw [h, h]
  · obtain h' | h' := mostSpecific_cases t (t.mostSpecific m)
    · exact h'
    · rw [mostSpecific_signature, h] at h'
      exact (Option.some.inj h').symm

theorem assignable_name_iff (hts : Hierarchy ts) (ht : t ∈ ts) (hu : u ∈ ts) :
    t.assignable u.name = true ↔ ReflTransGen Above t u := by
  rw [assignable_iff]
  constructor
  · rintro ⟨v, hv, hn⟩
    exact hts.eq_of_name (hts.closed_all ht hv) hu hn ▸ hv
  · exact fun h => ⟨u, h, rfl⟩

/-- A type has the methods of all types that it can be assigned to: the nearest one on its chain
    and, if there is none, one of an interface. The most specific method is found in the same way,
    and finding it once is enough. -/
theorem find?_resolves (hts : Hierarchy ts) (himpl : ImplementsInterfaces ts) (ht : t ∈ ts) :
    (∀ s, (t.find? s).isSome = true ↔
        ∃ u ∈ ts, t.assignable u.name = true ∧ Declares s u) ∧
      (∀ s m, t.find? s = some m → Nearest s t m ∨
        (∀ u, ReflTransGen Extends t u → ¬ Declares s u) ∧
          ∃ i ∈ ts, i.isInterface = true ∧ t.assignable i.name = true ∧ First s i m) ∧
      ∀ m, t.mostSpecific (t.mostSpecific m) = t.mostSpecific m ∧
        (t.mostSpecific m).signature = m.signature ∧
        ∀ u ∈ ts, t.assignable u.name = true → m ∈ u.methods →
          ∃ v ∈ ts, t.assignable v.name = true ∧ t.mostSpecific m ∈ v.methods := by
  have hassign {u : TypeDecl} (hu : ReflTransGen Above t u) :
      u ∈ ts ∧ t.assignable u.name = true :=
    ⟨hts.closed_all ht hu, (assignable_name_iff hts ht (hts.closed_all ht hu)).2 hu⟩
  refine ⟨fun s => ⟨fun h => ?_, fun ⟨u, hu, ha, hs⟩ => ?_⟩, fun s m h => ?_,
    fun m => ⟨mostSpecific_mostSpecific t m, mostSpecific_signature t m, fun u hu ha hm => ?_⟩⟩
  · obtain ⟨m, hm⟩ := Option.isSome_iff_exists.1 h
    obtain ⟨u, hu, hfirst⟩ := find?_above hm
    exact ⟨u, (hassign hu).1, (hassign hu).2, hfirst.declares⟩
  · exact find?_isSome hts himpl ht ((assignable_name_iff hts ht hu).1 ha) hs
  · refine (find?_cases h).imp_right fun ⟨hnone, i, hi, hfirst⟩ => ⟨hnone, i, ?_⟩
    have hu := hassign (above_of_mem_allInterfaces hi)
    exact ⟨hu.1, isInterface_of_mem_allInterfaces hts himpl ht hi, hu.2, hfirst⟩
  · obtain h | h := mostSpecific_cases t m
    · exact ⟨u, hu, ha, h.symm ▸ hm⟩
    · obtain ⟨v, hv, hfirst⟩ := find?_above h
      exact ⟨v, (hassign hv).1, (hassign hv).2, hfirst.mem⟩

def priced : TypeDecl := .ofInterface "Priced" [] [{ name := "price" }]

def sold : TypeDecl := .ofInterface "Sold" [priced] []

def listed : TypeDecl := .ofInterface "Listed" [priced] [{ name := "list" }]

def shop : TypeDecl := .ofClass "Shop" none [sold, listed] []

def stall : TypeDecl := .ofClass "Stall" (some shop) [] [{ name := "list" }]

def market : List TypeDecl := [stall, shop, listed, sold, priced, object]

theorem market_hierarchy : Hierarchy market := by
  have hpriced : Hierarchy [priced, object] :=
    (Hierarchy.nil.object (by decide)).ofInterface _ (by decide) (List.nil_subset _)
  have hsold : Hierarchy [sold, priced, object] :=
    hpriced.ofInterface _ (by decide) (by simp)
  have hlisted : Hierarchy [listed, sold, priced, object] :=
    hsold.ofInterface _ (by decide) (by simp)
  have hshop : Hierarchy [shop, listed, sold, priced, object] :=
    hlisted.ofClass _ (by decide) (by simp) (by simp)
  exact hshop.ofClass _ (by decide) (by simp) (List.nil_subset _)

theorem find?_resolves_price : Hierarchy market ∧ ImplementsInterfaces market ∧ stall ∈ market ∧
    (stall.find? ⟨"price", []⟩).isSome = true ∧
    ∃ v ∈ market, stall.assignable v.name = true ∧
      stall.mostSpecific (MethodDraft.on { name := "price" } "Priced") ∈ v.methods := by
  have himpl : ImplementsInterfaces market := by decide
  have hstall : stall ∈ market := List.mem_cons_self
  have hpriced : priced ∈ market := by simp [market]
  obtain ⟨hfound, -, hspecific⟩ := find?_resolves market_hierarchy himpl hstall
  refine ⟨market_hierarchy, himpl, hstall, (hfound _).2 ⟨priced, hpriced, by decide, ?_⟩, ?_⟩
  · exact ⟨_, List.mem_cons_self, rfl⟩
  · exact (hspecific _).2.2 priced hpriced (by decide) List.mem_cons_self

end TypeDecl

end CachedCalls
