import CachedCalls.Proofs.Execution.Act
import CachedCalls.Proofs.Manager.Find
import CachedCalls.Session.World

set_option autoImplicit false

namespace CachedCalls

abbrev Store := Nat → Key → Option Value

namespace Store

def set (S : Store) (P : Nat → Key → Bool) (x : Option Value) : Store := fun p k =>
  if P p k then x else S p k

theorem set_set (S : Store) (P Q : Nat → Key → Bool) (x : Option Value) :
    (S.set P x).set Q x = S.set (fun p k => P p k || Q p k) x := by
  funext p k
  unfold set
  cases hP : P p k <;> cases hQ : Q p k <;> simp [hP, hQ]

theorem set_never (S : Store) (x : Option Value) : S.set (fun _ _ => false) x = S := rfl

theorem set_entry {S : Store} {q : Nat} {k : Key} {x : Option Value} {m m' : MapCache}
    (hS : ∀ l, S q l = m.get l) (hm : ∀ l, m'.get l = if l = k then x else m.get l) :
    (fun p l => if p = q then m'.get l else S p l) =
      S.set (fun p l => decide (p = q) && decide (l = k)) x := by
  funext p l
  unfold set
  by_cases hp : p = q
  · subst hp
    rw [if_pos rfl, hm, hS]
    by_cases hl : l = k <;> simp [hl]
  · simp [hp]

theorem set_place (S : Store) {q : Nat} {x : Option Value} {m : MapCache} (hm : ∀ l, m.get l = x) :
    (fun p l => if p = q then m.get l else S p l) = S.set (fun p _ => decide (p = q)) x := by
  funext p l
  unfold set
  by_cases hp : p = q <;> simp [hp, hm]

end Store

namespace World

def store (w : World) : Store := fun p k => (w.heap[p]?).bind (Backend.get · k)

/-- From `w` to `w'` no cache was accessed: at most, empty caches were added. -/
structure Still (w w' : World) : Prop where
  faults : w'.faults = w.faults
  heap : Heap.Grows w.heap w'.heap

theorem Still.of_heap {w w' : World} (hf : w'.faults = w.faults) (hh : w'.heap = w.heap) :
    w.Still w' := ⟨hf, hh ▸ Heap.Grows.refl w.heap⟩

theorem Still.store {w w' : World} (h : w.Still w') : w'.store = w.store := by
  obtain ⟨-, cs, hcs, hempty⟩ := h
  funext p k
  unfold World.store
  rw [hcs]
  by_cases hp : p < w.heap.length
  · rw [List.getElem?_append_left hp]
  · rw [List.getElem?_append_right (Nat.le_of_not_lt hp),
      List.getElem?_eq_none (Nat.le_of_not_lt hp)]
    cases hc : cs[p - w.heap.length]? with
    | none => rfl
    | some c => exact hempty c (List.mem_of_getElem? hc) k

theorem withCompiled_still {α : Type} (f : Compiled → Except ExprError α × Compiled) :
    Keeps Still (withCompiled f) := by
  intro w
  unfold withCompiled
  generalize f w.compiled = x
  obtain ⟨r, c⟩ := x
  cases r <;> exact .of_heap rfl rfl

theorem services_still : services.Keeps Still where
  refl w := .of_heap rfl rfl
  trans h h' := ⟨h'.faults.trans h.faults, h.heap.trans h'.heap⟩
  metadata o m t w := by
    change w.Still (stateOf (askMetadata o m t w))
    unfold askMetadata
    split <;> exact .of_heap rfl rfl
  find r n w := by
    change w.Still (find r n w).2
    unfold find
    split
    · exact .of_heap rfl rfl
    · exact ⟨rfl, Manager.find_grows n _ w.heap⟩
  test u el t sc := withCompiled_still fun c => c.test u el t sc
  key el t sc := withCompiled_still fun c => c.value .key el t sc

/-- In the place `p` lies a map that takes nulls as well. -/
def Open (w : World) (p : Nat) : Prop := ∃ m, w.heap[p]? = some (.map m) ∧ m.allowNull = true

theorem open_iff {w : World} {p : Nat} :
    w.Open p ↔ (match w.heap[p]? with | some (.map m) => m.allowNull | _ => false) = true := by
  unfold Open
  split
  · next m hm => simp [hm]
  · next hno => simpa using fun m hm => absurd hm (hno m)

instance (w : World) (p : Nat) : Decidable (w.Open p) := decidable_of_iff' _ open_iff

structure Ready (ps : Nat → Prop) (w : World) : Prop where
  faults : w.faults = []
  opened : ∀ p, ps p → w.Open p

theorem Ready.still {ps : Nat → Prop} {w w' : World} (hw : w.Ready ps) (h : w.Still w') :
    w'.Ready ps := by
  refine ⟨h.faults.trans hw.faults, fun p hp => ?_⟩
  obtain ⟨m, hm, hnull⟩ := hw.opened p hp
  obtain ⟨cs, hcs, -⟩ := h.heap
  refine ⟨m, ?_, hnull⟩
  rw [hcs, List.getElem?_append_left (List.getElem?_eq_some_iff.1 hm).1]
  exact hm

theorem note_rest (w : World) (what : AccessName) (n : String) (k : Option Key) (e : Effect) :
    (w.note what n k e).heap = w.heap ∧ (w.note what n k e).faults = w.faults := by
  unfold note name
  split
  · exact ⟨rfl, rfl⟩
  · cases k with
    | none => exact ⟨rfl, rfl⟩
    | some k =>
      simp only
      split <;> exact ⟨rfl, rfl⟩

end World

variable {ε α β : Type} (ps : Nat → Prop)

/-- Where the maps in `ps` are open and `x` ends without an error, `R` relates the store before, the
    value and the store after. -/
def Does (x : EStateM ε World α) (R : Store → α → Store → Prop) : Prop :=
  ∀ w a w', w.Ready ps → x w = .ok a w' → w'.Ready ps ∧ R w.store a w'.store

def Serves (x : EStateM ε World α) (R : Store → α → Store → Prop) : Prop :=
  ∀ w, w.Ready ps → ∃ a w', x w = .ok a w' ∧ w'.Ready ps ∧ R w.store a w'.store

def Sets (P : Nat → Key → Bool) (x : Option Value) (S : Store) (_ : Unit) (S' : Store) : Prop :=
  S' = S.set P x

variable {ps}

namespace Does

theorem mono {x : EStateM ε World α} {R R' : Store → α → Store → Prop} (hx : Does ps x R)
    (h : ∀ S a S', R S a S' → R' S a S') : Does ps x R' := by
  intro w a w' hw hr
  obtain ⟨hw', hR⟩ := hx w a w' hw hr
  exact ⟨hw', h _ _ _ hR⟩

theorem pure {R : Store → α → Store → Prop} {a : α} (h : ∀ S, R S a S) :
    Does ps (Pure.pure a : EStateM ε World α) R := by
  intro w b w' hw hr
  obtain ⟨rfl, rfl⟩ := pure_ok.1 hr
  exact ⟨hw, h w.store⟩

theorem bind {x : EStateM ε World α} {f : α → EStateM ε World β} {R : Store → α → Store → Prop}
    {T : α → Store → β → Store → Prop} {U : Store → β → Store → Prop} (hx : Does ps x R)
    (hf : ∀ a, Does ps (f a) (T a)) (h : ∀ S a S' b S'', R S a S' → T a S' b S'' → U S b S'') :
    Does ps (x >>= f) U := by
  intro w b w' hw hr
  obtain ⟨a, w₁, hx₁, hf₁⟩ := bind_ok.1 hr
  obtain ⟨hw₁, hR⟩ := hx w a w₁ hw hx₁
  obtain ⟨hw', hT⟩ := hf a w₁ b w' hw₁ hf₁
  exact ⟨hw', h _ _ _ _ _ hR hT⟩

theorem of_still {x : EStateM ε World α} {Q : α → Prop} (hx : Keeps World.Still x)
    (hQ : ∀ w a w', x w = .ok a w' → Q a) : Does ps x (fun S a S' => S' = S ∧ Q a) := by
  intro w a w' hw hr
  have h := hx w
  rw [hr] at h
  exact ⟨hw.still h, h.store, hQ w a w' hr⟩

theorem guard {acc : Access} {a : α} {x : EStateM CacheError World α}
    {R : Store → α → Store → Prop} (hx : Serves ps x R) (h : ErrorHandler World) :
    Does ps (h.guard acc a x) R := by
  intro w b w' hw hr
  obtain ⟨b', w₁, hx₁, hw₁, hR⟩ := hx w hw
  unfold ErrorHandler.guard at hr
  rw [hx₁] at hr
  cases hr
  exact ⟨hw₁, hR⟩

theorem gated {x : Act World Bool} {y : Act World Unit} {q : Bool} {P : Nat → Key → Bool}
    {v : Option Value} (hx : Does ps x (fun S p S' => S' = S ∧ q = p)) (hy : Does ps y (Sets P v)) :
    Does ps (do if ← x then y) (Sets (fun p k => q && P p k) v) := by
  refine bind hx (T := fun p => Sets (fun i k => p && P i k) v) (fun p => ?_) ?_
  · cases p with
    | false => exact pure fun S => (S.set_never v).symm
    | true => exact hy
  · rintro S p _ _ S'' ⟨rfl, rfl⟩ hS
    exact hS

theorem forM {f : β → Act World Unit} {P : β → Nat → Key → Bool} {x : Option Value} (bs : List β)
    (hf : ∀ b ∈ bs, Does ps (f b) (Sets (P b) x)) :
    Does ps (bs.forM f) (Sets (fun p k => bs.any (P · p k)) x) := by
  induction bs with
  | nil => exact pure fun S => (S.set_never x).symm
  | cons b bs ih =>
    obtain ⟨hb, hbs⟩ := List.forall_mem_cons.1 hf
    refine bind hb (fun _ => ih hbs) ?_
    rintro S _ S' _ S'' rfl rfl
    exact S.set_set _ _ x

end Does

namespace Serves

variable {c : CacheRef} (hc : ps c.place)

include hc

theorem access (what : AccessName) (k : Option Key) (shown : α → Effect)
    {f : Cache → Except CacheError (α × Cache)} (g : MapCache → α × MapCache)
    (hf : ∀ m, m.allowNull = true → f (.map m) = .ok ((g m).1, .map (g m).2))
    (hg : ∀ m, (g m).2.allowNull = m.allowNull) {R : Store → α → Store → Prop}
    (hR : ∀ (S : Store) m, (∀ l, S c.place l = m.get l) →
      R S (g m).1 fun p l => if p = c.place then (g m).2.get l else S p l) :
    Serves ps (World.access what c k shown f) R := by
  intro w hw
  obtain ⟨m, hm, hnull⟩ := hw.opened c.place hc
  have hcache : w.cache c = .map m := by rw [World.cache, hm]; rfl
  have hstrike : w.faults.strike? c.name what = none := by rw [hw.faults]; rfl
  obtain ⟨hlt, -⟩ := List.getElem?_eq_some_iff.1 hm
  have hrun : World.access what c k shown f w = .ok (g m).1
      ((w.setCache c (.map (g m).2)).note what c.name k (shown (g m).1)) := by
    unfold World.access
    simp only [hstrike, hcache, hf m hnull]
  have hget (p : Nat) : (w.heap.set c.place (.map (g m).2))[p]? =
      if p = c.place then some (.map (g m).2) else w.heap[p]? := by
    rw [List.getElem?_set]
    by_cases hp : c.place = p
    · rw [if_pos hp, if_pos hp.symm, if_pos (hp ▸ hlt)]
    · rw [if_neg hp, if_neg fun h => hp h.symm]
  refine ⟨_, _, hrun, ⟨?_, fun p hp => ?_⟩, ?_⟩
  · rw [(World.note_rest _ _ _ _ _).2]
    exact hw.faults
  · unfold World.Open
    rw [(World.note_rest _ _ _ _ _).1]
    change ∃ m', (w.heap.set c.place (.map (g m).2))[p]? = some (.map m') ∧ m'.allowNull = true
    rw [hget]
    by_cases h : p = c.place
    · rw [if_pos h]
      exact ⟨_, rfl, (hg m).trans hnull⟩
    · rw [if_neg h]
      exact hw.opened p hp
  · have hS : ∀ l, w.store c.place l = m.get l := by
      intro l
      unfold World.store
      rw [hm]
      rfl
    have hstore : ((w.setCache c (.map (g m).2)).note what c.name k (shown (g m).1)).store =
        fun p l => if p = c.place then (g m).2.get l else w.store p l := by
      funext p l
      unfold World.store
      rw [(World.note_rest _ _ _ _ _).1]
      change ((w.heap.set c.place (.map (g m).2))[p]?).bind _ = _
      rw [hget]
      by_cases h : p = c.place
      · rw [if_pos h, if_pos h]
        rfl
      · rw [if_neg h, if_neg h]
    rw [hstore]
    exact hR w.store m hS

theorem get (k : Key) : Serves ps (World.services.get c k)
    (fun S v S' => S' = S ∧ v = S c.place k) := by
  change Serves ps (World.access .get c (some k) .found fun x => .ok (Backend.get x k, x)) _
  refine access hc .get (some k) _ (fun m => (m.get k, m)) (fun m _ => rfl) (fun m => rfl) ?_
  intro S m hS
  refine ⟨?_, (hS k).symm⟩
  funext p l
  by_cases h : p = c.place
  · rw [if_pos h, h, hS]
  · rw [if_neg h]

theorem put (k : Key) (v : Value) : Serves ps (World.services.put c k v)
    (Sets (fun p l => decide (p = c.place) && decide (l = k)) (some v)) := by
  change Serves ps (World.access .put c (some k) (fun _ => .stored v) fun x =>
    (Backend.put x k v).map fun x => ((), x)) _
  refine access hc .put (some k) _ (fun m => ((), m.insert k v)) (fun m hm => ?_) (fun m => rfl) ?_
  · change ((m.put k v).map Cache.map).map _ = _
    simp [MapCache.put, MapCache.check, MapCache.storable, hm, Except.map]
  · intro S m hS
    exact Store.set_entry hS fun l => Entries.get?_put m.entries k l v

theorem evict (k : Key) : Serves ps (World.services.evict c k)
    (Sets (fun p l => decide (p = c.place) && decide (l = k)) none) := by
  change Serves ps (World.access .evict c (some k) (fun _ => .done) fun x =>
    .ok ((), Backend.evict x k)) _
  refine access hc .evict (some k) _ (fun m => ((), m.evict k)) (fun m _ => rfl) (fun m => rfl) ?_
  intro S m hS
  exact Store.set_entry hS fun l => Entries.get?_erase m.entries k l

theorem evictIfPresent (k : Key) : Serves ps (World.services.evictIfPresent c k)
    (fun S _ S' => S' = S.set (fun p l => decide (p = c.place) && decide (l = k)) none) := by
  change Serves ps (World.access .evictIfPresent c (some k) .truth fun x =>
    .ok (Backend.evictIfPresent x k)) _
  refine access hc .evictIfPresent (some k) _ (·.evictIfPresent k) (fun m _ => rfl) (fun m => rfl) ?_
  intro S m hS
  exact Store.set_entry hS fun l => Entries.get?_erase m.entries k l

theorem clear : Serves ps (World.services.clear c) (Sets (fun p _ => decide (p = c.place)) none) := by
  change Serves ps (World.access .clear c none (fun _ => .done) fun x => .ok ((), Backend.clear x)) _
  refine access hc .clear none _ (fun m => ((), m.clear)) (fun m _ => rfl) (fun m => rfl) ?_
  intro S m _
  exact Store.set_place S fun l => rfl

theorem invalidate : Serves ps (World.services.invalidate c)
    (fun S _ S' => S' = S.set (fun p _ => decide (p = c.place)) none) := by
  change Serves ps (World.access .invalidate c none .truth fun x => .ok (Backend.invalidate x)) _
  refine access hc .invalidate none _ (·.invalidate) (fun m _ => rfl) (fun m => rfl) ?_
  intro S m _
  exact Store.set_place S fun l => rfl

omit hc

theorem discard {x : EStateM ε World α} {P : Nat → Key → Bool} {v : Option Value}
    (hx : Serves ps x (fun S _ S' => S' = S.set P v)) :
    Serves ps (Functor.discard x) (Sets P v) := by
  intro w hw
  obtain ⟨a, w', hr, hw', hS⟩ := hx w hw
  refine ⟨(), w', ?_, hw', hS⟩
  change EStateM.bind x _ w = _
  unfold EStateM.bind
  rw [hr]

end Serves

end CachedCalls
