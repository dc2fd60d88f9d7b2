import CachedCalls.Cache.Basic
import CachedCalls.Proofs.Cache.Kept

set_option autoImplicit false

namespace CachedCalls

namespace Cache

variable {σ : Type} [BoundedStore σ]

def allowsNull? : Cache σ → Option Bool
  | map c => some c.allowNull
  | bounded c => some c.allowNull
  | _ => none

/-- Nulls, and nothing else, are refused unless they are allowed, by puts and by loads. -/
structure Follows (allowNull : Bool) (c : Cache σ) : Prop where
  put : ∀ k v, if v.isNull ∧ allowNull = false
    then Backend.put c k v = .error (.nullRefused (Backend.name c))
    else ∃ d, Backend.put c k v = .ok d
  putIfAbsent : ∀ k v, if v.isNull ∧ allowNull = false
    then Backend.putIfAbsent c k v = .error (.nullRefused (Backend.name c))
    else ∃ r, Backend.putIfAbsent c k v = .ok r
  load : ∀ k i v, (Backend.finish c k i (.ok v)).1 = if v.isNull ∧ allowNull = false
    then .error (.nullRefused (Backend.name c)) else .ok v

theorem follows_map (c : MapCache) : Follows c.allowNull (.map c : Cache σ) where
  put k v := by
    have hput : Backend.put (map c : Cache σ) k v = (c.put k v).map map := rfl
    rw [hput, MapCache.put_eq]
    split
    · rfl
    · exact ⟨_, rfl⟩
  putIfAbsent k v := by
    have hput : Backend.putIfAbsent (map c : Cache σ) k v =
        (c.putIfAbsent k v).map (Prod.map id map) := rfl
    rw [hput, MapCache.putIfAbsent_eq]
    split
    · rfl
    · split <;> exact ⟨_, rfl⟩
  load k i v := by
    obtain ⟨fs, hfinish⟩ := c.finish_cases k i (.ok v)
    have hload : (Backend.finish (map c : Cache σ) k i (.ok v)).1 = (c.finish k i (.ok v)).1 := rfl
    rw [hload, hfinish, MapCache.keep_eq]
    dsimp only
    split <;> rfl

theorem follows_bounded [DocumentedStore σ] (c : BoundedCache σ) :
    Follows c.allowNull (.bounded c) where
  put k v := by
    have hput : Backend.put (bounded c) k v = (c.put k v).map bounded := rfl
    rw [hput, BoundedCache.put, MapCache.storable]
    split
    · rfl
    · exact ⟨_, rfl⟩
  putIfAbsent k v := by
    have hput : Backend.putIfAbsent (bounded c) k v =
        (c.putIfAbsent k v).map (Prod.map id bounded) := rfl
    rw [hput, BoundedCache.putIfAbsent, MapCache.storable]
    split
    · rfl
    · exact ⟨_, rfl⟩
  load k i v := by
    have htaken := DocumentedStore.takeLoaded_fst BoundedCache.LoadFault c.store k
      (BoundedCache.judge c.allowNull (.ok v))
    have hload : (Backend.finish (bounded c) k i (.ok v)).1 = (c.finish k (.ok v)).1 := rfl
    rw [hload]
    change Except.mapError _ (BoundedStore.takeLoaded c.store k (BoundedCache.judge c.allowNull (.ok v))).1 = _
    rw [htaken, BoundedCache.judge]
    split <;> rfl

theorem follows_of_allowsNull [DocumentedStore σ] {c : Cache σ} {b : Bool}
    (h : c.allowsNull? = some b) : c.Follows b := by
  cases c with
  | map c =>
    cases h
    exact follows_map c
  | bounded c =>
    cases h
    exact follows_bounded c
  | _ => cases h

def made (c : Cache σ) : String × String × Option Bool :=
  (Backend.provider c, Backend.name c, c.allowsNull?)

theorem keeps_made : Backend.Keeps (made : Cache σ → String × String × Option Bool) :=
  keeps_of (MapCache.keeps_policy.comp fun p => ("concurrent_map", p.1, some p.2))
    (BoundedCache.keeps_policy.comp fun p => ("moka", p.1, some p.2))
    (NoCache.keeps_name.comp fun n => ("noop", n, (none : Option Bool)))
    (MinimalCache.keeps_name.comp fun n => ("minimal", n, (none : Option Bool)))

end Cache

end CachedCalls
