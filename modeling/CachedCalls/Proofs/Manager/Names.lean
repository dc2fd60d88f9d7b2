import CachedCalls.Proofs.Association
import CachedCalls.Proofs.Manager.Find

set_option autoImplicit false

namespace CachedCalls

inductive Prospect where
  | offered
  | nothing
  | refused
  deriving DecidableEq

namespace Manager

mutual

def prospect (n : String) : Manager → Prospect
  | leaf kind dynamic _ caches =>
    if (caches.lookup n).isSome then .offered
    else if dynamic then if kind.builds then .offered else .refused
    else .nothing
  | composite parts => prospectFirst n parts

def prospectFirst (n : String) : List Manager → Prospect
  | [] => .nothing
  | m :: ms =>
    match prospect n m with
    | .nothing => prospectFirst n ms
    | p => p

end

def offers (n : String) (m : Manager) : Bool := decide (prospect n m = .offered)

mutual

def holds? (n : String) : Manager → Option Nat
  | leaf _ _ _ caches => caches.lookup n
  | composite parts => firstHeld? n parts

def firstHeld? (n : String) : List Manager → Option Nat
  | [] => none
  | m :: ms => if prospect n m = .nothing then firstHeld? n ms else holds? n m

end

/-- For every name `m'` has the prospect that `m` has, and it holds what `m` holds. -/
structure Remembers (m m' : Manager) : Prop where
  prospect : ∀ n, prospect n m' = prospect n m
  holds : ∀ n i, holds? n m = some i → holds? n m' = some i

namespace Remembers

theorem refl (m : Manager) : Remembers m m := ⟨fun _ => rfl, fun _ _ hi => hi⟩

theorem offers {m m' : Manager} (h : Remembers m m') (n : String) :
    Manager.offers n m' = Manager.offers n m := by
  unfold Manager.offers
  rw [h.prospect]

theorem cons {m m' : Manager} {ms ms' : List Manager} (hm : Remembers m m')
    (hms : Remembers (composite ms) (composite ms')) :
    Remembers (composite (m :: ms)) (composite (m' :: ms')) := by
  have hprospect := hms.prospect
  have hholds := hms.holds
  simp only [Manager.prospect, holds?] at hprospect hholds
  refine ⟨fun n => ?_, fun n i hi => ?_⟩
  · simp only [Manager.prospect, prospectFirst, hm.prospect, hprospect]
  · simp only [holds?, firstHeld?, hm.prospect] at hi ⊢
    by_cases hn : Manager.prospect n m = .nothing
    · rw [if_pos hn] at hi ⊢
      exact hholds n i hi
    · rw [if_neg hn] at hi ⊢
      exact hm.holds n i hi

theorem add {kind : CacheKind} (hkind : kind.builds = true) (allowNull : Bool) {n : String}
    {caches : List (String × Nat)} (hn : caches.lookup n = none) (i : Nat) :
    Remembers (leaf kind true allowNull caches) (leaf kind true allowNull (fileUnder n i caches)) := by
  refine ⟨fun p => ?_, fun p j hj => ?_⟩
  · simp [Manager.prospect, hkind]
  · simp only [holds?] at hj ⊢
    rw [lookup_fileUnder, if_neg]
    · exact hj
    · intro hp
      rw [hp, hn] at hj
      cases hj

end Remembers

variable {σ : Type} [BoundedStore σ]

/-- How asking for a name ends: it changes nothing if there is no cache to be had, and else the
    manager holds it from then on. -/
inductive Asked (n : String) (m : Manager) (h : Heap σ) : Finding × Manager × Heap σ → Prop where
  | nothing (hp : prospect n m = .nothing) : Asked n m h (.nothing, m, h)
  | refused (hp : prospect n m = .refused) : Asked n m h (.refused, m, h)
  | offered {i : Nat} {m' : Manager} {h' : Heap σ} (hp : prospect n m = .offered)
      (hheld : holds? n m' = some i) (hrem : Remembers m m') : Asked n m h (.cache i, m', h')

theorem composite_asked {n : String} {m : Manager} {ms : List Manager} {h : Heap σ}
    (hm : Asked n m h (find n m h))
    (hms : Asked n (composite ms) h (find n (composite ms) h)) :
    Asked n (composite (m :: ms)) h (find n (composite (m :: ms)) h) := by
  have hfirst {p : Prospect} (hp : prospect n m = p) (hne : p ≠ .nothing) :
      prospect n (composite (m :: ms)) = p := by
    rw [prospect, prospectFirst, hp]
    cases p with
    | nothing => exact absurd rfl hne
    | _ => rfl
  rw [find] at hms ⊢
  rw [findFirst]
  generalize hx : find n m h = x at hm
  cases hm with
  | refused hp => exact .refused (hfirst hp nofun)
  | offered hp hheld hrem =>
    refine .offered (hfirst hp nofun) ?_ (.cons hrem (.refl _))
    rw [holds?, firstHeld?, hrem.prospect, hp, if_neg nofun]
    exact hheld
  | nothing hp =>
    have hrest : prospect n (composite (m :: ms)) = prospect n (composite ms) := by
      simp only [prospect, prospectFirst, hp]
    simp only
    generalize findFirst n ms h = y at hms ⊢
    obtain ⟨f, ms', h'⟩ := y
    cases hms with
    | nothing hps => exact .nothing (hrest.trans hps)
    | refused hps => exact .refused (hrest.trans hps)
    | offered hps hheld hrem =>
      refine .offered (hrest.trans hps) ?_ (.cons (.refl m) hrem)
      rw [holds?, firstHeld?, if_pos hp]
      exact hheld

theorem leaf_asked [DocumentedStore σ] (n : String) (kind : CacheKind) (dynamic allowNull : Bool)
    (caches : List (String × Nat)) (h : Heap σ) :
    Asked n (leaf kind dynamic allowNull caches) h
      (find n (leaf kind dynamic allowNull caches) h) := by
  have hbuilds := CacheKind.isSome_fresh σ kind n allowNull
  have hfinds := find_leaf n kind dynamic allowNull caches h
  generalize find n (leaf kind dynamic allowNull caches) h = x at hfinds
  cases hfinds with
  | known hn => exact .offered (by simp [prospect, hn]) hn (.refl _)
  | unknown hn hd => exact .nothing (by simp [prospect, hn, hd])
  | refused hn hd hc =>
    rw [hc] at hbuilds
    exact .refused (by simp [prospect, hn, hd, ← hbuilds])
  | made hn hd hc =>
    rw [hc] at hbuilds
    subst hd
    refine .offered (by simp [prospect, hn, ← hbuilds]) ?_ (.add hbuilds.symm allowNull hn h.length)
    rw [holds?, lookup_fileUnder, if_pos rfl]

mutual

theorem asked [DocumentedStore σ] (n : String) (m : Manager) (h : Heap σ) : Asked n m h (find n m h) := by
  match m with
  | leaf kind dynamic allowNull caches => exact leaf_asked n kind dynamic allowNull caches h
  | composite parts => exact composite_all_asked n parts h

theorem composite_all_asked [DocumentedStore σ] (n : String) (ms : List Manager) (h : Heap σ) :
    Asked n (composite ms) h (find n (composite ms) h) := by
  match ms with
  | [] => exact .nothing rfl
  | m :: ms => exact composite_asked (asked n m h) (composite_all_asked n ms h)

end

end Manager

end CachedCalls
