import CachedCalls.Proofs.Cache.Kept
import CachedCalls.Proofs.Cache.Seen

set_option autoImplicit false

namespace CachedCalls.Cache

/-- The reply of a map to a request, and of a cache that leaves to the defaults what has one. The
    default of a put if absent takes a null for no fault where a value is there already. -/
def Step.Replies (allowNull : Bool) : Step → Reply → Reply → Prop
  | .putIfAbsent _ v, native, given => ¬ (v.isNull ∧ allowNull = false) → given = native
  | .evictIfPresent _, native, given => (∃ b, native = .truth b) ∧ given = .truth false
  | .invalidate, native, given => (∃ b, native = .truth b) ∧ given = .truth false
  | .contains _, native, given => (∃ b, native = .truth b) ∧ given = .unknown
  | .describe, native, given =>
    ∃ n m, native = .about n "concurrent_map" (some m) ∧ given = .about n "minimal" none
  | _, native, given => given = native

mutual

def Step.Answers (allowNull : Bool) : Step → Answer → Answer → Prop
  | .compute k loaded nested, .mk r _ (some (some as)), .mk r' _ (some (some as')) =>
    Step.Replies allowNull (.compute k loaded nested) r r' ∧ Step.AllAnswers allowNull nested as as'
  | s, .mk r _ l, .mk r' _ l' => s.Replies allowNull r r' ∧ l = l' ∧ (l = none ∨ l = some none)

def Step.AllAnswers (allowNull : Bool) : List Step → List Answer → List Answer → Prop
  | [], [], [] => True
  | s :: ss, a :: as, a' :: as' => s.Answers allowNull a a' ∧ Step.AllAnswers allowNull ss as as'
  | _, _, _ => False

end

/-- A cache with defaults answers the request as the map does, and its map is then the same, at the
    end and all along. -/
structure Step.AsNative (s : Step) (c : MapCache) : Prop where
  left : (s.run (⟨c⟩ : MinimalCache)).2 = ⟨(s.run c).2⟩
  trail : s.trail (⟨c⟩ : MinimalCache) = (s.trail c).map MinimalCache.mk
  answers : s.Answers c.allowNull (s.run c).1 (s.run (⟨c⟩ : MinimalCache)).1

structure Step.AllAsNative (ss : List Step) (c : MapCache) : Prop where
  left : (Step.runAll ss (⟨c⟩ : MinimalCache)).2 = ⟨(Step.runAll ss c).2⟩
  trail : Step.trailAll ss (⟨c⟩ : MinimalCache) = (Step.trailAll ss c).map MinimalCache.mk
  answers : Step.AllAnswers c.allowNull ss (Step.runAll ss c).1
    (Step.runAll ss (⟨c⟩ : MinimalCache)).1

theorem Step.AsNative.of_run {s : Step} {c d : MapCache} (native given : Reply)
    (hnative : s.run c = answer native d)
    (hgiven : s.run (⟨c⟩ : MinimalCache) = answer given ⟨d⟩)
    (htrail : s.trail c = [(s.run c).2])
    (htrail' : s.trail (⟨c⟩ : MinimalCache) = [(s.run (⟨c⟩ : MinimalCache)).2])
    (hr : s.Replies c.allowNull native given) : s.AsNative c where
  left := by
    rw [hnative, hgiven]
    rfl
  trail := by
    rw [htrail, htrail', hnative, hgiven]
    rfl
  answers := by
    rw [hnative, hgiven]
    cases s <;> exact ⟨hr, rfl, .inl rfl⟩

section Requests

variable (c : MapCache) (k : Key)

theorem Step.asNative_put (v : Value) : Step.AsNative (.put k v) c := by
  have hput : c.put k v = _ := MapCache.put_eq c k v
  have hgiven : Backend.put (⟨c⟩ : MinimalCache) k v = (c.put k v).map MinimalCache.mk := rfl
  by_cases hv : v.isNull ∧ c.allowNull = false
  · rw [hput, if_pos hv] at hgiven
    refine .of_run _ _ (run_put_refused c k hv) ?_ rfl rfl rfl
    rw [run, hgiven]
    rfl
  · rw [hput, if_neg hv] at hgiven
    refine .of_run _ _ (run_put_stored c k hv) ?_ rfl rfl rfl
    rw [run, hgiven]
    rfl

theorem Step.asNative_putIfAbsent (v : Value) : Step.AsNative (.putIfAbsent k v) c := by
  have hput : c.put k v = _ := MapCache.put_eq c k v
  cases hget : c.get k with
  | some w =>
    have hgiven : Step.run (.putIfAbsent k v) (⟨c⟩ : MinimalCache) =
        answer (.found (some w)) ⟨c⟩ := by
      simp only [run, Backend.putIfAbsent, hget]
    by_cases hv : v.isNull ∧ c.allowNull = false
    · exact .of_run _ _ (run_putIfAbsent_refused c k hv) hgiven rfl rfl fun h => absurd hv h
    · exact .of_run _ _ (run_putIfAbsent_present c k hv hget) hgiven rfl rfl fun _ => rfl
  | none =>
    have hgiven : Backend.putIfAbsent (⟨c⟩ : MinimalCache) k v =
        ((c.put k v).map MinimalCache.mk).map fun c => (none, c) := by
      simp only [Backend.putIfAbsent, hget]
    by_cases hv : v.isNull ∧ c.allowNull = false
    · rw [hput, if_pos hv] at hgiven
      refine .of_run _ (.failed (.nullRefused c.name)) (run_putIfAbsent_refused c k hv) ?_ rfl rfl
        fun h => absurd hv h
      rw [run, hgiven]
      rfl
    · rw [hput, if_neg hv] at hgiven
      refine .of_run _ _ (run_putIfAbsent_absent c k hv hget) ?_ rfl rfl fun _ => rfl
      rw [run, hgiven]
      rfl

theorem Step.asNative_compute (loaded : Except String Value) {nested : List Step}
    (hnested : ∀ d : MapCache, Step.AllAsNative nested d) :
    Step.AsNative (.compute k loaded nested) c := by
  have hgiven : Backend.begin (⟨c⟩ : MinimalCache) k =
    ((Backend.begin c k).1, ⟨(Backend.begin c k).2⟩) := rfl
  have hpolicy : (Backend.begin c k).2.allowNull = c.allowNull :=
    congrArg Prod.snd (MapCache.keeps_policy.begin c k)
  rcases hb : Backend.begin c k with ⟨o | i, d⟩
  · rw [hb] at hgiven
    constructor
    · rw [run, run, hgiven, hb]
    · rw [trail, trail, hgiven, hb]
      rfl
    · rw [run, run, hgiven, hb]
      exact ⟨rfl, rfl, .inr rfl⟩
  · rw [hb] at hgiven hpolicy
    obtain ⟨hleft, htrail, hanswers⟩ := hnested d
    have hend : Backend.finish (⟨(Step.runAll nested d).2⟩ : MinimalCache) k i loaded =
      ((Backend.finish (Step.runAll nested d).2 k i loaded).1,
        ⟨(Backend.finish (Step.runAll nested d).2 k i loaded).2⟩) := rfl
    constructor
    · rw [run, run, hgiven, hb]
      simp only [hleft, hend]
    · rw [trail, trail, hgiven, hb]
      simp only [hleft, hend, htrail, List.map_cons, List.map_append, List.map_nil]
    · rw [run, run, hgiven, hb]
      simp only [hleft, hend]
      exact ⟨rfl, hpolicy ▸ hanswers⟩

end Requests

mutual

theorem Step.asNative (s : Step) (c : MapCache) : s.AsNative c := by
  match s with
  | .get k => exact .of_run (.found _) _ rfl rfl rfl rfl rfl
  | .put k v => exact asNative_put c k v
  | .putIfAbsent k v => exact asNative_putIfAbsent c k v
  | .evict k => exact .of_run .done _ rfl rfl rfl rfl rfl
  | .evictIfPresent k => exact .of_run (.truth _) (.truth false) rfl rfl rfl rfl ⟨⟨_, rfl⟩, rfl⟩
  | .clear => exact .of_run .done _ rfl rfl rfl rfl rfl
  | .invalidate => exact .of_run (.truth _) (.truth false) rfl rfl rfl rfl ⟨⟨_, rfl⟩, rfl⟩
  | .contains k => exact .of_run (.truth _) .unknown rfl rfl rfl rfl ⟨⟨_, rfl⟩, rfl⟩
  | .describe => exact .of_run (.about _ _ _) (.about _ _ _) rfl rfl rfl rfl ⟨_, _, rfl, rfl⟩
  | .compute k loaded nested => exact asNative_compute c k loaded fun d => allAsNative nested d

theorem Step.allAsNative (ss : List Step) (c : MapCache) : Step.AllAsNative ss c := by
  match ss with
  | [] => exact ⟨rfl, rfl, trivial⟩
  | s :: ss =>
    obtain ⟨hleft, htrail, hanswers⟩ := s.asNative c
    obtain ⟨hleft', htrail', hanswers'⟩ := allAsNative ss (s.run c).2
    have hpolicy : (s.run c).2.allowNull = c.allowNull :=
      congrArg Prod.snd (Step.run_keeps MapCache.keeps_policy s c)
    rw [hpolicy] at hanswers'
    constructor
    · rw [runAll, runAll]
      simp only [hleft, hleft']
    · rw [trailAll, trailAll, hleft, htrail, htrail', List.map_append]
    · rw [runAll, runAll]
      simp only [hleft]
      exact ⟨hanswers, hanswers'⟩

end

end CachedCalls.Cache
