import CachedCalls.Proofs.Cache.SingleFlight

set_option autoImplicit false

namespace CachedCalls.Race

namespace Stage

def marked? : Stage → Option Nat
  | loading i | loaded i _ => some i
  | start | missed | entered _ | waiting _ | locked _ | ready _ | keeping _ _ | leaving _ _
  | unlocking _ _ | lettingGo _ _ | done _ => none

end Stage

structure Attended (r : Race) : Prop where
  locks : ∀ i, r.cache.flights.isLocked i = true →
    ∃ (w : Nat) (c : Caller), r.callers[w]? = some c ∧ c.stage.lock? = some i
  marks : ∀ i w, r.cache.flights.loader? i = some w →
    ∃ c : Caller, r.callers[w]? = some c ∧ c.stage.marked? = some i

theorem set_caller {cs : List Caller} {me : Nat} {c : Caller} (hc : cs[me]? = some c) (d : Caller)
    (w : Nat) : (cs.set me d)[w]? = if w = me then some d else cs[w]? := by
  have hlt := (List.getElem?_eq_some_iff.1 hc).1
  by_cases h : w = me
  · subst h
    rw [if_pos rfl, List.getElem?_set_self hlt]
  · rw [if_neg h, List.getElem?_set_ne fun he => h he.symm]

theorem set_caller_self {cs : List Caller} {me : Nat} {c : Caller} (hc : cs[me]? = some c)
    (d : Caller) : (cs.set me d)[me]? = some d :=
  (set_caller hc d me).trans (if_pos rfl)

theorem set_caller_other {cs : List Caller} {me w : Nat} {c : Caller} (hc : cs[me]? = some c)
    (d : Caller) (hw : w ≠ me) : (cs.set me d)[w]? = cs[w]? :=
  (set_caller hc d w).trans (if_neg hw)

theorem step?_cases {r r' : Race} {me : Nat} (h : r.step? me = some r') :
    ∃ c s m, r.callers[me]? = some c ∧ c.stage.advance me c.key r.cache = some (s, m) ∧
      r' = ⟨m, r.callers.set me { c with stage := s }⟩ := by
  obtain ⟨c, hc, h⟩ := Option.bind_eq_some_iff.1 h
  obtain ⟨⟨s, m⟩, hs, h⟩ := Option.bind_eq_some_iff.1 h
  exact ⟨c, s, m, hc, hs, (Option.some.inj h).symm⟩

theorem endLoad?_cases {r r' : Race} {me : Nat} {l : Except String Value}
    (h : r.endLoad? me l = some r') : ∃ k i, r.callers[me]? = some ⟨k, .loading i⟩ ∧
      r' = { r with callers := r.callers.set me ⟨k, .loaded i l⟩ } := by
  obtain ⟨⟨k, stage⟩, hc, h⟩ := Option.bind_eq_some_iff.1 h
  obtain ⟨s, hs, h⟩ := Option.bind_eq_some_iff.1 h
  cases stage <;> cases hs
  exact ⟨k, _, hc, (Option.some.inj h).symm⟩

namespace Attended

variable {r : Race} (ha : r.Attended) {me : Nat} {c : Caller} (hc : r.callers[me]? = some c)

include ha hc

/-- The caller `me` goes on as `d` and leaves the cache as `m`. What is taken or marked then it has
    itself, or it was so before and the caller lets go of nothing of it. -/
theorem move {d : Caller} {m : MapCache}
    (hlock : ∀ i, m.flights.isLocked i = true → d.stage.lock? = some i ∨
      (r.cache.flights.isLocked i = true ∧ (c.stage.lock? = some i → d.stage.lock? = some i)))
    (hmark : ∀ i w, m.flights.loader? i = some w → (w = me ∧ d.stage.marked? = some i) ∨
      (r.cache.flights.loader? i = some w ∧
        (c.stage.marked? = some i → d.stage.marked? = some i))) :
    Attended ⟨m, r.callers.set me d⟩ := by
  have hself : (r.callers.set me d)[me]? = some d := set_caller_self hc d
  refine ⟨fun i hi => ?_, fun i w hi => ?_⟩
  · rcases hlock i hi with hd | ⟨hi, hkeep⟩
    · exact ⟨me, d, hself, hd⟩
    · obtain ⟨w, b, hb, hbi⟩ := ha.locks i hi
      by_cases hw : w = me
      · subst hw
        rw [hc] at hb
        cases hb
        exact ⟨w, d, hself, hkeep hbi⟩
      · exact ⟨w, b, (set_caller_other hc d hw).trans hb, hbi⟩
  · rcases hmark i w hi with ⟨rfl, hd⟩ | ⟨hi, hkeep⟩
    · exact ⟨d, hself, hd⟩
    · obtain ⟨b, hb, hbi⟩ := ha.marks i w hi
      by_cases hw : w = me
      · subst hw
        rw [hc] at hb
        cases hb
        exact ⟨d, hself, hkeep hbi⟩
      · exact ⟨b, (set_caller_other hc d hw).trans hb, hbi⟩

theorem stay {s : Stage} {m : MapCache}
    (hlock : ∀ i, m.flights.isLocked i = true → r.cache.flights.isLocked i = true)
    (hmark : ∀ i w, m.flights.loader? i = some w → r.cache.flights.loader? i = some w)
    (hl : s.lock? = c.stage.lock?) (hm : s.marked? = c.stage.marked?) :
    Attended ⟨m, r.callers.set me { c with stage := s }⟩ := by
  refine ha.move hc (fun i hi => .inr ⟨hlock i hi, fun h => ?_⟩) fun i w hi =>
    .inr ⟨hmark i w hi, fun h => ?_⟩
  · exact hl.trans h
  · exact hm.trans h

theorem same {s : Stage} {m : MapCache} (hf : m.flights = r.cache.flights)
    (hl : s.lock? = c.stage.lock?) (hm : s.marked? = c.stage.marked?) :
    Attended ⟨m, r.callers.set me { c with stage := s }⟩ := by
  refine ha.stay hc (fun i hi => ?_) (fun i w hi => ?_) hl hm
  · rw [← hf, hi]
  · rw [← hf, hi]

variable (hr : r.Sound)

include hr

theorem mark {i : Nat} (hi : c.stage.flight? = some i) {who : Option Nat}
    (hwho : ∀ w, who = some w → w = me) {s : Stage} (hl : s.lock? = c.stage.lock?)
    (hs : who = some me → s.marked? = some i) (hm : ∀ j, c.stage.marked? = some j → j = i) :
    Attended ⟨r.cache.mark i who, r.callers.set me { c with stage := s }⟩ := by
  have hpos : 0 < r.cache.flights.holders i := hr.holders_pos (List.mem_of_getElem? hc) hi
  refine ha.move hc (fun j hj => ?_) fun j w hj => ?_
  · have hsame : (r.cache.mark i who).flights.isLocked j = r.cache.flights.isLocked j :=
      Flights.isLocked_modify i _ j fun _ => rfl
    exact .inr ⟨hsame ▸ hj, fun h => hl.trans h⟩
  · have hload : (r.cache.mark i who).flights.loader? j = _ :=
      Flights.loader?_setLoader hpos who j
    rw [hload] at hj
    by_cases h : j = i
    · rw [if_pos h] at hj
      have hw := hwho w hj
      subst hw
      exact .inl ⟨rfl, h ▸ hs hj⟩
    · rw [if_neg h] at hj
      exact .inr ⟨hj, fun hcj => absurd (hm j hcj) h⟩

theorem lock {i : Nat} (hs : c.stage = .waiting i) {m : MapCache} (hm : r.cache.lock i = some m) :
    Attended ⟨m, r.callers.set me { c with stage := .locked i }⟩ := by
  have hpos : 0 < r.cache.flights.holders i :=
    hr.holders_pos (List.mem_of_getElem? hc) (by rw [hs]; rfl)
  unfold MapCache.lock at hm
  split at hm
  · cases hm
  · cases hm
    refine ha.move hc (fun j hj => ?_) fun j w hj => ?_
    · have hl := Flights.isLocked_setLocked hpos true j
      by_cases h : j = i
      · exact .inl (congrArg some h.symm)
      · rw [if_neg h] at hl
        refine .inr ⟨hl.symm.trans hj, fun hcj => ?_⟩
        rw [hs] at hcj
        cases hcj
    · have hsame : (r.cache.flights.setLocked i true).loader? j = r.cache.flights.loader? j :=
        Flights.loader?_modify i _ j fun _ => rfl
      refine .inr ⟨hsame.symm.trans hj, fun hcj => ?_⟩
      rw [hs] at hcj
      cases hcj

theorem unlock {i : Nat} {o : Outcome} (hs : c.stage = .unlocking i o) :
    Attended ⟨r.cache.unlock i, r.callers.set me { c with stage := .lettingGo i o }⟩ := by
  have hpos : 0 < r.cache.flights.holders i :=
    hr.holders_pos (List.mem_of_getElem? hc) (by rw [hs]; rfl)
  refine ha.move hc (fun j hj => ?_) fun j w hj => ?_
  · have hl : (r.cache.unlock i).flights.isLocked j = _ := Flights.isLocked_setLocked hpos false j
    rw [hl] at hj
    by_cases h : j = i
    · rw [if_pos h] at hj
      cases hj
    · rw [if_neg h] at hj
      refine .inr ⟨hj, fun hcj => ?_⟩
      rw [hs] at hcj
      exact absurd (Option.some.inj hcj).symm h
  · have hsame : (r.cache.flights.setLocked i false).loader? j = r.cache.flights.loader? j :=
      Flights.loader?_modify i _ j fun _ => rfl
    refine .inr ⟨hsame.symm.trans hj, fun hcj => ?_⟩
    rw [hs] at hcj
    cases hcj

theorem advance {s : Stage} {m : MapCache} (hs : c.stage.advance me c.key r.cache = some (s, m)) :
    Attended ⟨m, r.callers.set me { c with stage := s }⟩ := by
  obtain ⟨k, stage⟩ := c
  cases stage with
  | start =>
    simp only [Stage.advance] at hs
    split at hs <;> cases hs
    · exact ha.same hc rfl rfl rfl
    · exact ha.same hc rfl rfl rfl
  | missed =>
    cases hs
    refine ha.stay hc (fun i hi => ?_) (fun i w hi => ?_) rfl rfl
    · exact (Flights.isLocked_enter hr.flights k i).symm.trans hi
    · exact (Flights.loader?_enter hr.flights k i).symm.trans hi
  | entered i =>
    simp only [Stage.advance] at hs
    split at hs <;> cases hs
    · exact ha.same hc rfl rfl rfl
    · exact ha.same hc rfl rfl rfl
  | waiting i =>
    obtain ⟨m', hm, h⟩ := Option.map_eq_some_iff.1 hs
    cases h
    exact ha.lock hc hr rfl hm
  | locked i =>
    simp only [Stage.advance] at hs
    split at hs <;> cases hs
    · exact ha.same hc rfl rfl rfl
    · exact ha.same hc rfl rfl rfl
  | ready i =>
    cases hs
    refine ha.mark hc hr rfl ?_ rfl (fun _ => rfl) ?_
    · rintro w ⟨⟩
      rfl
    · rintro j ⟨⟩
  | loading i => cases hs
  | loaded i l =>
    cases hs
    refine ha.mark hc hr rfl ?_ rfl ?_ fun j hj => (Option.some.inj hj).symm
    · rintro w ⟨⟩
    · rintro ⟨⟩
  | keeping i l =>
    cases hs
    exact ha.same hc (keep_flights r.cache k l) rfl rfl
  | leaving i o =>
    cases hs
    refine ha.stay hc (fun j hj => ?_) (fun j w hj => ?_) rfl rfl
    · exact (Flights.isLocked_leave k i j).symm.trans hj
    · exact (Flights.loader?_leave k i j).symm.trans hj
  | unlocking i o =>
    cases hs
    exact ha.unlock hc hr rfl
  | lettingGo i o =>
    cases hs
    refine ha.stay hc (fun j hj => ?_) (fun j w hj => ?_) rfl rfl
    · exact Flights.isLocked_of_letGo hr.flights hj
    · exact Flights.loader?_of_letGo hr.flights hj
  | done o => cases hs

omit hc hr

theorem endLoad {l : Except String Value} {r' : Race} (h : r.endLoad? me l = some r') :
    r'.Attended := by
  obtain ⟨k, i, hc, rfl⟩ := endLoad?_cases h
  exact ha.same hc rfl rfl rfl

theorem again {k l : Key} {o : Outcome} (hc : r.callers[me]? = some ⟨k, .done o⟩) :
    Attended { r with callers := r.callers.set me { key := l } } := by
  refine ha.move hc (fun i hi => .inr ⟨hi, ?_⟩) fun i w hi => .inr ⟨hi, ?_⟩
  · rintro ⟨⟩
  · rintro ⟨⟩

theorem join (k : Key) : Attended { r with callers := r.callers ++ [{ key := k }] } := by
  have hold {w : Nat} {c : Caller} (hc : r.callers[w]? = some c) :
      (r.callers ++ [{ key := k }])[w]? = some c := by
    rw [List.getElem?_append_left (List.getElem?_eq_some_iff.1 hc).1, hc]
  refine ⟨fun i hi => ?_, fun i w hi => ?_⟩
  · obtain ⟨w, c, hc, hci⟩ := ha.locks i hi
    exact ⟨w, c, hold hc, hci⟩
  · obtain ⟨c, hc, hci⟩ := ha.marks i w hi
    exact ⟨c, hold hc, hci⟩

theorem edit (e : Edit) : Attended { r with cache := e.apply r.cache } := by
  have hf := edit_flights r.cache e
  refine ⟨fun i hi => ha.locks i ?_, fun i w hi => ha.marks i w ?_⟩
  · rw [← hf]
    exact hi
  · rw [← hf]
    exact hi

theorem next {r' : Race} (hr : r.Sound) (h : Move r r') : r'.Attended := by
  cases h with
  | step me h =>
    obtain ⟨c, s, m, hc, hs, rfl⟩ := step?_cases h
    exact ha.advance hc hr hs
  | endLoad me l h => exact ha.endLoad h
  | again l h => exact ha.again h
  | join k => exact ha.join k
  | edit e => exact ha.edit e

end Attended

theorem Reachable.attended {r : Race} (h : Reachable r) : r.Attended := by
  induction h with
  | start name allowNull es ks => exact ⟨fun _ hi => (nomatch hi), fun _ _ hi => (nomatch hi)⟩
  | next h hm ih => exact ih.next h.sound hm

theorem Attended.not_own {r : Race} (ha : r.Attended) {me i : Nat} {k : Key}
    (hc : r.callers[me]? = some ⟨k, .entered i⟩) : r.cache.flights.loader? i ≠ some me := by
  intro hi
  obtain ⟨c, hc', hci⟩ := ha.marks i me hi
  rw [hc] at hc'
  cases hc'
  cases hci

inductive Turn where
  | step (me : Nat)
  | endLoad (me : Nat) (l : Except String Value)

def turn? (r : Race) : Turn → Option Race
  | .step me => r.step? me
  | .endLoad me l => r.endLoad? me l

def turns? (r : Race) : List Turn → Option Race
  | [] => some r
  | a :: as => (r.turn? a).bind (·.turns? as)

theorem Reachable.turns {r r' : Race} (h : Reachable r) {as : List Turn}
    (hs : r.turns? as = some r') : Reachable r' := by
  induction as generalizing r with
  | nil =>
    cases hs
    exact h
  | cons a as ih =>
    obtain ⟨r₁, h₁, hrest⟩ := Option.bind_eq_some_iff.1 hs
    cases a with
    | step me => exact ih (h.next (.step me h₁)) hrest
    | endLoad me l => exact ih (h.next (.endLoad me l h₁)) hrest

def twoCallers : Race :=
  ⟨⟨"prices", true, [], {}⟩, [{ key := .plain .null }, { key := .plain .null }]⟩

theorem twoCallers_reachable : Reachable twoCallers :=
  .start "prices" true [] [.plain .null, .plain .null]

end CachedCalls.Race
