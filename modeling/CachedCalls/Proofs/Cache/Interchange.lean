import CachedCalls.Proofs.Cache.Nested
import CachedCalls.Proofs.Cache.Seen

/-!
The two caches that keep entries, side by side. As long as its store loses nothing, a bounded cache
answers every series of requests as a map does (`answers_interchangeable`); both are compared with
the reference, which knows neither flights nor stores.
-/

set_option autoImplicit false

namespace CachedCalls

theorem Entries.isEmpty_iff (es : Entries) : es.isEmpty = true ↔ ∀ k, es.get? k = none := by
  cases es with
  | nil => exact iff_of_true rfl get?_nil
  | cons e es =>
    refine iff_of_false Bool.false_ne_true fun h => ?_
    have he := h e.1
    rw [get?_cons, if_pos rfl] at he
    cases he

open BoundedStore in
/-- A store that loses nothing to its bounds is a map: whatever is done to it shows in what it has
    under its keys, and in nothing else. -/
class LosslessStore (σ : Type) [BoundedStore σ] : Prop where
  get_empty : ∀ k, get (empty : σ) k = none
  get_put : ∀ (s : σ) (k : Key) (v : Value) (l : Key),
    get (put s k v) l = if l = k then some v else get s l
  putIfAbsent_present : ∀ (s : σ) (k : Key) (v w : Value), get s k = some w →
    ∃ t, putIfAbsent s k v = ((w, false), t) ∧ ∀ l, get t l = get s l
  putIfAbsent_absent : ∀ (s : σ) (k : Key) (v : Value), get s k = none →
    ∃ t, putIfAbsent s k v = ((v, true), t) ∧ ∀ l, get t l = if l = k then some v else get s l
  takeLoaded_ok : ∀ (ε : Type) (s : σ) (k : Key) (v : Value),
    ∃ t, takeLoaded s k (.ok v : Except ε Value) = (.ok v, t) ∧
      ∀ l, get t l = if l = k then some v else get s l
  takeLoaded_error : ∀ (ε : Type) (s : σ) (k : Key) (e : ε),
    ∃ t, takeLoaded s k (.error e) = (.error e, t) ∧ ∀ l, get t l = get s l
  get_erase : ∀ (s : σ) (k l : Key), get (erase s k) l = if l = k then none else get s l
  remove_eq : ∀ (s : σ) (k : Key),
    ∃ t, remove s k = (get s k, t) ∧ ∀ l, get t l = if l = k then none else get s l
  get_clear : ∀ (s : σ) (k : Key), get (clear s) k = none
  first?_eq_none : ∀ s : σ, first? s = none ↔ ∀ k, get s k = none
  get_settle : ∀ (s : σ) (k : Key), get (settle s) k = get s k

instance : LosslessStore Entries where
  get_empty _ := rfl
  get_put es k v l := es.get?_put k l v
  putIfAbsent_present es k v w h := by
    change Entries.get? es k = some w at h
    refine ⟨es, ?_, fun _ => rfl⟩
    simp only [BoundedStore.putIfAbsent, h]
  putIfAbsent_absent es k v h := by
    change Entries.get? es k = none at h
    refine ⟨es.put k v, ?_, fun l => es.get?_put k l v⟩
    simp only [BoundedStore.putIfAbsent, h]
  takeLoaded_ok _ es k v := ⟨_, rfl, fun l => es.get?_put k l v⟩
  takeLoaded_error _ es _ _ := ⟨es, rfl, fun _ => rfl⟩
  get_erase := Entries.get?_erase
  remove_eq es k := ⟨_, rfl, es.get?_erase k⟩
  get_clear _ _ := rfl
  first?_eq_none es := by
    change List.head? es = none ↔ _
    rw [List.head?_eq_none_iff, ← List.isEmpty_iff]
    exact es.isEmpty_iff
  get_settle _ _ := rfl

namespace Cache

theorem Reply.seen_bare (r : Reply) : r.bare.seen = r.seen := by
  cases r <;> rfl

mutual

theorem Answer.seen_bare (a : Answer) : a.bare.seen = a.seen := by
  match a with
  | .mk r _ none => exact congrArg (Answer.mk · none none) r.seen_bare
  | .mk r _ (some none) => exact congrArg (Answer.mk · none (some none)) r.seen_bare
  | .mk r _ (some (some as)) =>
    rw [bare, seen, seen, r.seen_bare, seenAll_bareAll as]

theorem Answer.seenAll_bareAll (as : List Answer) :
    Answer.seenAll (Answer.bareAll as) = Answer.seenAll as := by
  match as with
  | [] => rfl
  | a :: as => rw [bareAll, seenAll, seenAll, a.seen_bare, seenAll_bareAll as]

end

/-- A request that both caches know, with a load that asks nothing of them. -/
def Step.isCommon : Step → Bool
  | .contains _ | .describe => false
  | s => s.isAlone

def Holds {σ : Type} [BoundedStore σ] (t : σ) (es : Entries) : Prop :=
  ∀ k, BoundedStore.get t k = es.get? k

section Bounded

variable {σ : Type} [BoundedStore σ] (name : String) (allowNull : Bool) {es : Entries} {t : σ}

/-- A bounded cache over a store with these entries answers the request as the reference does, and
    has the entries of the reference after it. -/
def Step.Mirrors (s : Step) (es : Entries) (t : σ) : Prop :=
  ∃ a t', s.run (⟨name, allowNull, t⟩ : BoundedCache σ) = (a, ⟨name, allowNull, t'⟩) ∧
    a.seen = (s.reference name allowNull [] es).1.seen ∧
    Holds t' (s.reference name allowNull [] es).2

variable (h : Holds t es) (k : Key)

include h

theorem Holds.put {t' : σ} {v : Value}
    (ht : ∀ l, BoundedStore.get t' l = if l = k then some v else BoundedStore.get t l) :
    Holds t' (es.put k v) := fun l => by
  rw [ht, Entries.get?_put, h]

theorem Holds.same {t' : σ} (ht : ∀ l, BoundedStore.get t' l = BoundedStore.get t l) :
    Holds t' es := fun l => (ht l).trans (h l)

theorem Holds.erase {t' : σ}
    (ht : ∀ l, BoundedStore.get t' l = if l = k then none else BoundedStore.get t l) :
    Holds t' (es.erase k) := fun l => by
  rw [ht, Entries.get?_erase, h]

variable [LosslessStore σ]

theorem Holds.isSome_first? : (BoundedStore.first? t).isSome = !es.isEmpty := by
  have hiff : BoundedStore.first? t = none ↔ es.isEmpty = true := by
    rw [LosslessStore.first?_eq_none, es.isEmpty_iff]
    exact forall_congr' fun k => by rw [h k]
  cases hfirst : BoundedStore.first? t with
  | none => rw [hiff.1 hfirst]; rfl
  | some e =>
    have hne : es.isEmpty ≠ true := fun he => by
      rw [hiff.2 he] at hfirst
      cases hfirst
    rw [Bool.eq_false_iff.2 hne]
    rfl

theorem Step.mirrors_put (v : Value) : Step.Mirrors name allowNull (.put k v) es t := by
  unfold Mirrors
  rw [run, reference, unlessRefused]
  simp only [Backend.put, BoundedCache.put, MapCache.storable]
  by_cases hv : v.isNull ∧ allowNull = false
  · simp only [if_pos hv]
    exact ⟨_, t, rfl, rfl, h⟩
  · simp only [if_neg hv]
    exact ⟨_, _, rfl, rfl, h.put k (LosslessStore.get_put t k v)⟩

theorem Step.mirrors_putIfAbsent (v : Value) :
    Step.Mirrors name allowNull (.putIfAbsent k v) es t := by
  unfold Mirrors
  rw [run, reference, unlessRefused]
  simp only [Backend.putIfAbsent, BoundedCache.putIfAbsent, MapCache.storable]
  by_cases hv : v.isNull ∧ allowNull = false
  · simp only [if_pos hv]
    exact ⟨_, t, rfl, rfl, h⟩
  · simp only [if_neg hv]
    cases hget : es.get? k with
    | some w =>
      obtain ⟨t', heq, hsame⟩ := LosslessStore.putIfAbsent_present t k v w ((h k).trans hget)
      rw [heq]
      exact ⟨_, t', rfl, rfl, h.same hsame⟩
    | none =>
      obtain ⟨t', heq, hput⟩ := LosslessStore.putIfAbsent_absent t k v ((h k).trans hget)
      rw [heq]
      exact ⟨_, t', rfl, rfl, h.put k hput⟩

theorem Step.mirrors_compute (loaded : Except String Value) :
    Step.Mirrors name allowNull (.compute k loaded []) es t := by
  unfold Mirrors
  rw [run, reference]
  cases hget : es.get? k with
  | some v =>
    have hbegin : Backend.begin (⟨name, allowNull, t⟩ : BoundedCache σ) k =
        (.answered (.ok v), ⟨name, allowNull, t⟩) := by
      simp only [Backend.begin, BoundedCache.begin, h k, hget]
    rw [hbegin]
    exact ⟨_, t, rfl, rfl, h⟩
  | none =>
    have hbegin : Backend.begin (⟨name, allowNull, t⟩ : BoundedCache σ) k =
        (.load 0, ⟨name, allowNull, t⟩) := by
      simp only [Backend.begin, BoundedCache.begin, h k, hget]
    rw [hbegin]
    simp only [runAll, referenceAll, Backend.finish, BoundedCache.finish, List.not_mem_nil,
      if_false]
    cases loaded with
    | error e =>
      obtain ⟨t', heq, hsame⟩ :=
        LosslessStore.takeLoaded_error BoundedCache.LoadFault t k (.failed e)
      simp only [BoundedCache.judge, heq]
      exact ⟨_, t', rfl, rfl, h.same hsame⟩
    | ok v =>
      by_cases hv : v.isNull ∧ allowNull = false
      · obtain ⟨t', heq, hsame⟩ := LosslessStore.takeLoaded_error BoundedCache.LoadFault t k .null
        simp only [BoundedCache.judge, unlessRefused, if_pos hv, heq]
        exact ⟨_, t', rfl, rfl, h.same hsame⟩
      · obtain ⟨t', heq, hput⟩ := LosslessStore.takeLoaded_ok BoundedCache.LoadFault t k v
        simp only [BoundedCache.judge, unlessRefused, if_neg hv, heq]
        exact ⟨_, t', rfl, rfl, h.put k hput⟩

theorem Step.mirrors {s : Step} (hs : s.isCommon = true) : s.Mirrors name allowNull es t := by
  match s with
  | .get k => exact ⟨_, t, rfl, congrArg (fun v => Answer.mk (.found v) none none) (h k), h⟩
  | .put k v => exact mirrors_put name allowNull h k v
  | .putIfAbsent k v => exact mirrors_putIfAbsent name allowNull h k v
  | .evict k => exact ⟨_, _, rfl, rfl, h.erase k (LosslessStore.get_erase t k)⟩
  | .evictIfPresent k =>
    obtain ⟨t', heq, herase⟩ := LosslessStore.remove_eq t k
    unfold Mirrors
    rw [run]
    simp only [Backend.evictIfPresent, BoundedCache.evictIfPresent, heq, h k]
    exact ⟨_, t', rfl, rfl, h.erase k herase⟩
  | .clear => exact ⟨_, _, rfl, rfl, LosslessStore.get_clear t⟩
  | .invalidate =>
    unfold Mirrors
    rw [run]
    simp only [Backend.invalidate, BoundedCache.invalidate, h.isSome_first?]
    exact ⟨_, _, rfl, rfl, fun l =>
      (LosslessStore.get_settle _ l).trans (LosslessStore.get_clear t l)⟩
  | .compute k loaded nested =>
    cases List.isEmpty_iff.1 hs
    exact mirrors_compute name allowNull h k loaded
  | .contains _ | .describe => cases hs

theorem Step.seenAll_mirrored {ss : List Step} (hss : ∀ s ∈ ss, s.isCommon = true) :
    Answer.seenAll (Step.runAll ss (⟨name, allowNull, t⟩ : BoundedCache σ)).1 =
      Answer.seenAll (Step.referenceAll name allowNull ss [] es).1 := by
  induction ss generalizing es t with
  | nil => rfl
  | cons s ss ih =>
    obtain ⟨a, t', hrun, hseen, ht⟩ := Step.mirrors name allowNull h (hss s List.mem_cons_self)
    have hrest := ih ht fun s hs => hss s (List.mem_cons_of_mem _ hs)
    rw [runAll, hrun, referenceAll]
    change a.seen :: _ = _ :: _
    rw [hseen, hrest]

end Bounded

/-- A bounded cache whose store loses nothing and a map, both empty and with the same name and the
    same policy for nulls, give the same answer to every request, and have the same values loaded. -/
theorem answers_interchangeable {σ : Type} [BoundedStore σ] [LosslessStore σ] (name : String)
    (allowNull : Bool) (ss : List Step) (hss : ∀ s ∈ ss, s.isCommon = true) :
    Answer.seenAll (Step.runAll ss (⟨name, allowNull, [], {}⟩ : MapCache)).1 =
      Answer.seenAll (Step.runAll ss (⟨name, allowNull, BoundedStore.empty⟩ : BoundedCache σ)).1 := by
  obtain ⟨as, m, -, hrun, has, -⟩ := Step.allAgree name allowNull ss [] 0 [] nofun
  have hmap : Step.runAll ss (⟨name, allowNull, [], {}⟩ : MapCache) = _ := hrun
  have hempty : Holds (BoundedStore.empty : σ) [] := LosslessStore.get_empty
  rw [hmap, Step.seenAll_mirrored name allowNull hempty hss, ← Answer.seenAll_bareAll as, has]
  rfl

def teaRequests : List Step :=
  [.compute (.plain (.str "tea")) (.ok .null) [], .put (.plain (.str "tea")) (.int 3),
    .compute (.plain (.str "tea")) (.ok (.int 4)) [], .putIfAbsent (.plain (.str "tea")) .null,
    .putIfAbsent (.plain (.str "tea")) (.int 5), .evictIfPresent (.plain (.str "milk")),
    .compute (.plain (.str "milk")) (.error "sold out") [], .invalidate, .get (.plain (.str "tea")),
    .compute (.plain (.str "tea")) (.ok (.int 6)) [], .evict (.plain (.str "tea")), .clear, .invalidate]

theorem answers_interchangeable_tea :
    (∀ s ∈ teaRequests, s.isCommon = true) ∧
      (Step.runAll teaRequests (⟨"prices", false, [], {}⟩ : MapCache)).1.map Answer.reply =
        [.failed (.nullRefused "prices"), .done, .value (.int 3), .failed (.nullRefused "prices"),
          .found (some (.int 3)), .truth false,
          .failed (.notLoaded (.plain (.str "milk")) "sold out"), .truth true, .found none,
          .value (.int 6), .done, .done, .truth false] ∧
      Answer.seenAll (Step.runAll teaRequests (⟨"prices", false, [], {}⟩ : MapCache)).1 =
        Answer.seenAll (Step.runAll teaRequests
          (⟨"prices", false, BoundedStore.empty⟩ : BoundedCache Entries)).1 := by
  have hcommon : ∀ s ∈ teaRequests, s.isCommon = true := by decide
  exact ⟨hcommon, rfl, answers_interchangeable "prices" false teaRequests hcommon⟩

end Cache

end CachedCalls
