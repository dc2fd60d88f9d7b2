import CachedCalls.Cache.Step

set_option autoImplicit false

namespace CachedCalls.Cache

variable {γ : Type} [Backend γ]

mutual

/-- The caches that come about while a request is answered, the one that it leaves being the last. -/
def Step.trail : Step → γ → List γ
  | .compute k loaded nested, c =>
    match Backend.begin c k with
    | (.answered _, c) => [c]
    | (.load i, c) =>
      c :: (Step.trailAll nested c ++ [(Backend.finish (Step.runAll nested c).2 k i loaded).2])
  | s, c => [(s.run c).2]

def Step.trailAll : List Step → γ → List γ
  | [], _ => []
  | s :: ss, c => s.trail c ++ Step.trailAll ss (s.run c).2

end

theorem Step.getLast?_trail (s : Step) (c : γ) : (s.trail c).getLast? = some (s.run c).2 := by
  match s with
  | .compute k loaded nested =>
    rw [trail, run]
    rcases Backend.begin c k with ⟨o | i, c⟩
    · rfl
    · exact List.getLast?_concat (l := _ :: _)
  | .get _ | .put _ _ | .putIfAbsent _ _ | .evict _ | .evictIfPresent _ | .clear | .invalidate
  | .contains _ | .describe => rfl

theorem Step.getLast?_trailAll (ss : List Step) (c : γ) :
    (c :: Step.trailAll ss c).getLast? = some (Step.runAll ss c).2 := by
  induction ss generalizing c with
  | nil => rfl
  | cons s ss ih =>
    have hlast := ih (s.run c).2
    have hs := s.getLast?_trail c
    rw [trailAll, runAll]
    simp only [List.getLast?_cons, List.getLast?_append] at hlast ⊢
    rw [hs]
    simpa using hlast

def Answer.reply : Answer → Reply
  | .mk r _ _ => r

def Reply.seen : Reply → Reply
  | .about n p _ => .about n p none
  | r => r

mutual

def Answer.seen : Answer → Answer
  | .mk r _ none => .mk r.seen none none
  | .mk r _ (some none) => .mk r.seen none (some none)
  | .mk r _ (some (some as)) => .mk r.seen none (some (some (Answer.seenAll as)))

def Answer.seenAll : List Answer → List Answer
  | [] => []
  | a :: as => a.seen :: Answer.seenAll as

end

def Step.isAlone : Step → Bool
  | .compute _ _ nested => nested.isEmpty
  | _ => true

end CachedCalls.Cache
