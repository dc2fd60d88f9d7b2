import CachedCalls.Proofs.Cache.Nested

set_option autoImplicit false

namespace CachedCalls

theorem ok_of_map {ε α β : Type} {f : α → β} {x : Except ε α} {b : β} (h : x.map f = .ok b) :
    ∃ a, x = .ok a ∧ f a = b := by
  cases x with
  | error e => cases h
  | ok a => exact ⟨a, rfl, Except.ok.inj h⟩

namespace MapCache

variable (c : MapCache) (k : Key)

theorem begin_cases : ∃ b fs, c.begin k = (b, { c with flights := fs }) ∧
    ∀ v, b = .answered (.ok v) → c.get k = some v := by
  unfold begin
  cases hget : c.get k with
  | some v => exact ⟨_, c.flights, rfl, fun w hw => by cases hw; rfl⟩
  | none =>
    simp only
    split
    · exact ⟨_, _, rfl, nofun⟩
    · cases hlock : (c.enter k).2.lock (c.enter k).1 with
      | none => exact ⟨_, _, rfl, nofun⟩
      | some d =>
        obtain ⟨fs, rfl⟩ : ∃ fs, d = { c with flights := fs } := by
          unfold lock at hlock
          split at hlock
          · cases hlock
          · cases hlock
            exact ⟨_, rfl⟩
        have hagain : get { c with flights := fs } k = none := hget
        simp only [hagain]
        exact ⟨_, _, rfl, nofun⟩

theorem finish_cases (i : Nat) (loaded : Except String Value) :
    ∃ fs, c.finish k i loaded =
      ((c.keep k loaded).1, { (c.keep k loaded).2 with flights := fs }) :=
  finish_with c c.flights k i loaded

end MapCache

namespace Cache

section Puts

variable (c : MapCache) (k : Key) {v : Value}

theorem Step.run_put_refused (hv : v.isNull ∧ c.allowNull = false) :
    Step.run (.put k v) c = answer (.failed (.nullRefused c.name)) c := by
  have hput : Backend.put c k v = _ := MapCache.put_eq c k v
  rw [run, hput, if_pos hv]

theorem Step.run_put_stored (hv : ¬ (v.isNull ∧ c.allowNull = false)) :
    Step.run (.put k v) c = answer .done (c.insert k v) := by
  have hput : Backend.put c k v = _ := MapCache.put_eq c k v
  rw [run, hput, if_neg hv]

theorem Step.run_putIfAbsent_refused (hv : v.isNull ∧ c.allowNull = false) :
    Step.run (.putIfAbsent k v) c = answer (.failed (.nullRefused c.name)) c := by
  have hput : Backend.putIfAbsent c k v = _ := MapCache.putIfAbsent_eq c k v
  rw [run, hput, if_pos hv]

theorem Step.run_putIfAbsent_present (hv : ¬ (v.isNull ∧ c.allowNull = false)) {w : Value}
    (hget : c.get k = some w) : Step.run (.putIfAbsent k v) c = answer (.found (some w)) c := by
  have hput : Backend.putIfAbsent c k v = _ := MapCache.putIfAbsent_eq c k v
  rw [run, hput, if_neg hv, hget]

theorem Step.run_putIfAbsent_absent (hv : ¬ (v.isNull ∧ c.allowNull = false))
    (hget : c.get k = none) :
    Step.run (.putIfAbsent k v) c = answer (.found none) (c.insert k v) := by
  have hput : Backend.putIfAbsent c k v = _ := MapCache.putIfAbsent_eq c k v
  rw [run, hput, if_neg hv, hget]

end Puts

end Cache

variable {γ β : Type}

/-- The operations of a cache leave this of it as it is. -/
structure Backend.Keeps [Backend γ] (f : γ → β) : Prop where
  begin : ∀ c k, f (Backend.begin c k).2 = f c
  finish : ∀ c k i l, f (Backend.finish c k i l).2 = f c
  put : ∀ c k v d, Backend.put c k v = .ok d → f d = f c
  putIfAbsent : ∀ c k v r, Backend.putIfAbsent c k v = .ok r → f r.2 = f c
  evict : ∀ c k, f (Backend.evict c k) = f c
  evictIfPresent : ∀ c k, f (Backend.evictIfPresent c k).2 = f c
  clear : ∀ c, f (Backend.clear c) = f c
  invalidate : ∀ c, f (Backend.invalidate c).2 = f c

theorem Backend.Keeps.comp {δ : Type} [Backend γ] {f : γ → β} (hf : Backend.Keeps f) (g : β → δ) :
    Backend.Keeps (g ∘ f) where
  begin c k := congrArg g (hf.begin c k)
  finish c k i l := congrArg g (hf.finish c k i l)
  put c k v d h := congrArg g (hf.put c k v d h)
  putIfAbsent c k v r h := congrArg g (hf.putIfAbsent c k v r h)
  evict c k := congrArg g (hf.evict c k)
  evictIfPresent c k := congrArg g (hf.evictIfPresent c k)
  clear c := congrArg g (hf.clear c)
  invalidate c := congrArg g (hf.invalidate c)

namespace Cache

section Runs

variable [Backend γ] {f : γ → β}

mutual

theorem Step.run_keeps (hf : Backend.Keeps f) (s : Step) (c : γ) : f (s.run c).2 = f c := by
  match s with
  | .get _ | .contains _ | .describe =>
    rw [run]
    repeat split
    all_goals rfl
  | .put k v =>
    rw [run]
    cases hput : Backend.put c k v with
    | ok d => exact hf.put c k v d hput
    | error e => rfl
  | .putIfAbsent k v =>
    rw [run]
    cases hput : Backend.putIfAbsent c k v with
    | ok r => exact hf.putIfAbsent c k v r hput
    | error e => rfl
  | .evict k => exact hf.evict c k
  | .evictIfPresent k => exact hf.evictIfPresent c k
  | .clear => exact hf.clear c
  | .invalidate => exact hf.invalidate c
  | .compute k loaded nested =>
    have hbegin := hf.begin c k
    rw [run]
    rcases hb : Backend.begin c k with ⟨o | i, d⟩
    · rw [hb] at hbegin
      exact hbegin
    · rw [hb] at hbegin
      exact ((hf.finish _ k i loaded).trans (runAll_keeps hf nested d)).trans hbegin

theorem Step.runAll_keeps (hf : Backend.Keeps f) (ss : List Step) (c : γ) :
    f (Step.runAll ss c).2 = f c := by
  match ss with
  | [] => rfl
  | s :: ss => exact (runAll_keeps hf ss (s.run c).2).trans (run_keeps hf s c)

end

end Runs

end Cache

theorem MapCache.keeps_policy : Backend.Keeps fun c : MapCache => (c.name, c.allowNull) where
  begin c k := by
    obtain ⟨b, fs, hbegin, -⟩ := c.begin_cases k
    simp only [Backend.begin, hbegin]
  finish c k i l := by
    obtain ⟨fs, hfinish⟩ := c.finish_cases k i l
    simp only [Backend.finish, hfinish, keep_eq]
    cases l with
    | error e => rfl
    | ok v =>
      simp only
      split <;> rfl
  put c k v d h := by
    obtain ⟨_, -, rfl⟩ := ok_of_map h
    rfl
  putIfAbsent c k v r h := by
    obtain ⟨_, -, rfl⟩ := ok_of_map h
    split <;> rfl
  evict _ _ := rfl
  evictIfPresent _ _ := rfl
  clear _ := rfl
  invalidate _ := rfl

theorem MapCache.keeps_name : Backend.Keeps MapCache.name := keeps_policy.comp Prod.fst

theorem BoundedCache.keeps_policy {σ : Type} [BoundedStore σ] :
    Backend.Keeps fun c : BoundedCache σ => (c.name, c.allowNull) where
  begin c k := by
    simp only [Backend.begin, begin]
    split <;> rfl
  finish _ _ _ _ := rfl
  put c k v d h := by
    obtain ⟨_, -, rfl⟩ := ok_of_map h
    rfl
  putIfAbsent c k v r h := by
    obtain ⟨_, -, rfl⟩ := ok_of_map h
    rfl
  evict _ _ := rfl
  evictIfPresent _ _ := rfl
  clear _ := rfl
  invalidate _ := rfl

theorem BoundedCache.keeps_name {σ : Type} [BoundedStore σ] :
    Backend.Keeps (BoundedCache.name : BoundedCache σ → String) := keeps_policy.comp Prod.fst

theorem NoCache.keeps_name : Backend.Keeps NoCache.name where
  begin _ _ := rfl
  finish _ _ _ _ := rfl
  put _ _ _ _ h := by cases h; rfl
  putIfAbsent _ _ _ _ h := by cases h; rfl
  evict _ _ := rfl
  evictIfPresent _ _ := rfl
  clear _ := rfl
  invalidate _ := rfl

theorem MinimalCache.put_name {c d : MinimalCache} {k : Key} {v : Value}
    (h : Backend.put c k v = .ok d) : d.map.name = c.map.name := by
  obtain ⟨m, hm, rfl⟩ := ok_of_map h
  exact MapCache.keeps_name.put c.map k v m hm

theorem MinimalCache.keeps_name : Backend.Keeps fun c : MinimalCache => c.map.name where
  begin c k := MapCache.keeps_name.begin c.map k
  finish c k i l := MapCache.keeps_name.finish c.map k i l
  put _ _ _ _ h := put_name h
  putIfAbsent c k v r h := by
    simp only [Backend.putIfAbsent] at h
    split at h
    · cases h
      rfl
    · obtain ⟨d, hd, rfl⟩ := ok_of_map h
      exact put_name hd
  evict _ _ := rfl
  evictIfPresent _ _ := rfl
  clear _ := rfl
  invalidate _ := rfl

theorem Cache.keeps_of {σ : Type} [BoundedStore σ] {f : Cache σ → β} (hmap : Backend.Keeps (f ∘ map))
    (hbounded : Backend.Keeps (f ∘ bounded)) (hnone : Backend.Keeps (f ∘ none_))
    (hminimal : Backend.Keeps (f ∘ minimal)) : Backend.Keeps f where
  begin c k := by
    cases c with
    | map c => exact hmap.begin c k
    | bounded c => exact hbounded.begin c k
    | none_ c => exact hnone.begin c k
    | minimal c => exact hminimal.begin c k
  finish c k i l := by
    cases c with
    | map c => exact hmap.finish c k i l
    | bounded c => exact hbounded.finish c k i l
    | none_ c => exact hnone.finish c k i l
    | minimal c => exact hminimal.finish c k i l
  put c k v d h := by
    cases c with
    | map c =>
      obtain ⟨m, hm, rfl⟩ := ok_of_map h
      exact hmap.put c k v m hm
    | bounded c =>
      obtain ⟨b, hb, rfl⟩ := ok_of_map h
      exact hbounded.put c k v b hb
    | none_ c =>
      obtain ⟨d, hd, rfl⟩ := ok_of_map h
      exact hnone.put c k v d hd
    | minimal c =>
      obtain ⟨m, hm, rfl⟩ := ok_of_map h
      exact hminimal.put c k v m hm
  putIfAbsent c k v r h := by
    cases c with
    | map c =>
      obtain ⟨p, hp, rfl⟩ := ok_of_map h
      exact hmap.putIfAbsent c k v p hp
    | bounded c =>
      obtain ⟨p, hp, rfl⟩ := ok_of_map h
      exact hbounded.putIfAbsent c k v p hp
    | none_ c =>
      obtain ⟨p, hp, rfl⟩ := ok_of_map h
      exact hnone.putIfAbsent c k v p hp
    | minimal c =>
      obtain ⟨p, hp, rfl⟩ := ok_of_map h
      exact hminimal.putIfAbsent c k v p hp
  evict c k := by
    cases c with
    | map c => exact hmap.evict c k
    | bounded c => exact hbounded.evict c k
    | none_ c => exact hnone.evict c k
    | minimal c => exact hminimal.evict c k
  evictIfPresent c k := by
    cases c with
    | map c => exact hmap.evictIfPresent c k
    | bounded c => exact hbounded.evictIfPresent c k
    | none_ c => exact hnone.evictIfPresent c k
    | minimal c => exact hminimal.evictIfPresent c k
  clear c := by
    cases c with
    | map c => exact hmap.clear c
    | bounded c => exact hbounded.clear c
    | none_ c => exact hnone.clear c
    | minimal c => exact hminimal.clear c
  invalidate c := by
    cases c with
    | map c => exact hmap.invalidate c
    | bounded c => exact hbounded.invalidate c
    | none_ c => exact hnone.invalidate c
    | minimal c => exact hminimal.invalidate c

theorem Cache.keeps_name {σ : Type} [BoundedStore σ] :
    Backend.Keeps (Backend.name : Cache σ → String) :=
  keeps_of MapCache.keeps_name BoundedCache.keeps_name NoCache.keeps_name MinimalCache.keeps_name

end CachedCalls
