import CachedCalls.Proofs.Cache.Attendance

/-!
What the table of flights holds once all callers are through. A caller takes its flight out of the
table only if nobody else holds it, so a flight is left over where the last caller under it leaves
while an earlier one has yet to let go (`flight_left`). Nobody holds what is left over, there is one
flight at most of each key, and there is none where callers let go in time (`flights_left`).
-/

set_option autoImplicit false

namespace CachedCalls

namespace Flights

variable {fs : Flights}

theorem tabled_enter (k : Key) (j : Nat) : (fs.enter k).2.tabled j =
    fs.tabled j + if fs.find? k = none ∧ j = fs.fresh then 1 else 0 := by
  unfold enter
  cases h : fs.find? k with
  | some i => simp [tabled, modify]
  | none =>
    unfold tabled
    rw [List.countP_cons]
    by_cases hj : j = fs.fresh
    · simp [hj]
    · have hne : ¬ fs.fresh = j := fun h => hj h.symm
      simp [hj, hne]

theorem find?_enter_other {k l : Key} (hl : l ≠ k) : (fs.enter k).2.find? l = fs.find? l := by
  unfold enter
  cases fs.find? k with
  | some i => rfl
  | none =>
    have hne : ¬ k = l := fun h => hl h.symm
    simp [find?, hne]

theorem tabled_leave_le (k : Key) (i j : Nat) : (fs.leave k i).tabled j ≤ fs.tabled j := by
  obtain h | ⟨-, -, h⟩ := leave_cases fs k i
  · exact Nat.le_of_eq (by rw [h])
  · rw [h]
    exact List.filter_sublist.countP_le

theorem find?_of_leave {k l : Key} {i j : Nat} (h : (fs.leave k i).find? l = some j) :
    fs.find? l = some j := by
  obtain he | ⟨-, -, he⟩ := leave_cases fs k i
  · rwa [he] at h
  · rw [he] at h
    by_cases hl : l = k
    · subst hl
      have hnone : (fs.table.filter fun e => decide (e.1 ≠ l)).find? (fun e => decide (e.1 = l)) =
          none := by
        rw [List.find?_eq_none]
        intro e hmem heq
        exact of_decide_eq_true (List.mem_filter.1 hmem).2 (of_decide_eq_true heq)
      obtain ⟨e, hfind, -⟩ := Option.map_eq_some_iff.1 h
      rw [hnone] at hfind
      cases hfind
    · rw [find?, find?_without fs.table hl] at h
      exact h

theorem tabled_leave (hw : fs.WF) {k : Key} {i : Nat} (hk : fs.find? k = some i)
    (htwo : fs.holders i = 2) : (fs.leave k i).tabled i + 1 = fs.tabled i := by
  have hpos : 0 < fs.holders i := by omega
  obtain ⟨f, hf⟩ := holders_pos hpos
  have hcond : fs.find? k = some i ∧ (fs.flight? i).map (·.holders) = some 2 := by
    rw [holders, hf] at htwo
    exact ⟨hk, by rw [hf]; exact congrArg some htwo⟩
  have ht := tabled_without hw.keys (mem_table hk) i
  rw [if_pos rfl] at ht
  unfold leave
  rw [if_pos hcond]
  exact ht

end Flights

namespace Race

namespace Stage

def departing? : Stage → Option Nat
  | unlocking i _ | lettingGo i _ => some i
  | start | missed | entered _ | waiting _ | locked _ | ready _ | loading _ | loaded _ _
  | keeping _ _ | leaving _ _ | done _ => none

def leaving? : Stage → Option Nat
  | leaving i _ => some i
  | start | missed | entered _ | waiting _ | locked _ | ready _ | loading _ | loaded _ _
  | keeping _ _ | unlocking _ _ | lettingGo _ _ | done _ => none

theorem part_flight? (s : Stage) (i : Nat) :
    part s.flight? i = part s.led? i + part s.departing? i := by
  cases s <;> simp [flight?, led?, departing?, part_none]

end Stage

theorem count_cons (f : Stage → Option Nat) (c : Caller) (cs : List Caller) (i : Nat) :
    count f (c :: cs) i = count f cs i + part (f c.stage) i := by
  rw [count, List.countP_cons, count, part]
  simp only [decide_eq_true_eq]

theorem count_flight? (cs : List Caller) (i : Nat) : count Stage.flight? cs i =
    count Stage.led? cs i + count Stage.departing? cs i := by
  induction cs with
  | nil => rfl
  | cons c cs ih =>
    rw [count_cons, count_cons, count_cons, c.stage.part_flight? i]
    omega

theorem advance_table {me : Nat} {k : Key} {s s' : Stage} {m m' : MapCache}
    (h : s.advance me k m = some (s', m')) :
    m'.flights.table = m.flights.table ∨ (s = .missed ∧ m' = (m.enter k).2) ∨
      ∃ i o, s = .leaving i o ∧ m' = m.leave k i := by
  cases s with
  | start | locked i | entered i =>
    simp only [Stage.advance] at h
    split at h <;> cases h <;> exact .inl rfl
  | missed =>
    cases h
    exact .inr (.inl ⟨rfl, rfl⟩)
  | waiting i =>
    obtain ⟨n, hn, h⟩ := Option.map_eq_some_iff.1 h
    cases h
    unfold MapCache.lock at hn
    split at hn <;> cases hn
    exact .inl rfl
  | keeping i l =>
    cases h
    exact .inl (congrArg Flights.table (keep_flights m k l))
  | leaving i o =>
    cases h
    exact .inr (.inr ⟨i, o, rfl, rfl⟩)
  | loading i | done o => cases h
  | _ =>
    cases h
    exact .inl rfl

theorem Reachable.tabled_le {r : Race} (h : Reachable r) (j : Nat) :
    r.cache.flights.tabled j ≤ 1 := by
  induction h with
  | start name allowNull es ks => exact Nat.zero_le 1
  | @next r r' h hm ih =>
    have hr := h.sound
    cases hm with
    | step me hs =>
      obtain ⟨c, s, m, hc, hadv, rfl⟩ := step?_cases hs
      change m.flights.tabled j ≤ 1
      rcases advance_table hadv with ht | ⟨-, rfl⟩ | ⟨i, o, -, rfl⟩
      · rw [Flights.tabled, ht]
        exact ih
      · -- A new flight has a new number, to which no key leads.
        have hfresh : r.cache.flights.tabled r.cache.flights.fresh = 0 := by
          have hh := hr.held r.cache.flights.fresh
          rw [Flights.holders, Flights.flight?_fresh hr.flights] at hh
          simp only [Option.map_none, Option.getD_none] at hh
          omega
        have ht : (r.cache.enter c.key).2.flights.tabled j = r.cache.flights.tabled j + _ :=
          Flights.tabled_enter c.key j
        rw [ht]
        by_cases hnew : r.cache.flights.find? c.key = none ∧ j = r.cache.flights.fresh
        · rw [if_pos hnew, hnew.2]
          omega
        · rw [if_neg hnew]
          exact ih
      · exact Nat.le_trans (Flights.tabled_leave_le c.key i j) ih
    | endLoad me l hs =>
      obtain ⟨k, i, hc, rfl⟩ := endLoad?_cases hs
      exact ih
    | again l hc => exact ih
    | join l => exact ih
    | edit e =>
      change (e.apply r.cache).flights.tabled j ≤ 1
      rw [edit_flights]
      exact ih

/-- Whoever leaves a flight as the last caller that is led to it does so when all others have let go
    of it. -/
def Tidy (r r' : Race) : Prop :=
  ∀ x ∈ r.callers.zip r'.callers, ∀ i ∈ x.1.stage.leaving?, x.2.stage.led? = some i ∨
    2 ≤ count Stage.led? r.callers i ∨ count Stage.departing? r.callers i = 0

instance (r r' : Race) : Decidable (Tidy r r') :=
  inferInstanceAs (Decidable (∀ x ∈ r.callers.zip r'.callers, ∀ i ∈ x.1.stage.leaving?,
    x.2.stage.led? = some i ∨ 2 ≤ count Stage.led? r.callers i ∨
      count Stage.departing? r.callers i = 0))

inductive Orderly : Race → Prop where
  | start (name : String) (allowNull : Bool) (es : Entries) (ks : List Key) :
      Orderly ⟨⟨name, allowNull, es, {}⟩, ks.map fun k => { key := k }⟩
  | next {r r' : Race} : Orderly r → Move r r' → Tidy r r' → Orderly r'

theorem Orderly.reachable {r : Race} (h : Orderly r) : Reachable r := by
  induction h with
  | start name allowNull es ks => exact .start name allowNull es ks
  | next _ hm _ ih => exact ih.next hm

theorem advance_led {me : Nat} {k : Key} {s s' : Stage} {m m' : MapCache}
    (h : s.advance me k m = some (s', m')) (hmissed : s ≠ .missed)
    (hleaving : ∀ i o, s ≠ .leaving i o)
    (hown : ∀ i, s = .entered i → m.flights.loader? i ≠ some me) :
    s'.led? = s.led? ∧ m'.flights.table = m.flights.table := by
  have htable : m'.flights.table = m.flights.table := by
    rcases advance_table h with ht | ⟨hs, -⟩ | ⟨i, o, hs, -⟩
    · exact ht
    · exact absurd hs hmissed
    · exact absurd hs (hleaving i o)
  refine ⟨?_, htable⟩
  cases s with
  | start | locked i =>
    simp only [Stage.advance] at h
    split at h <;> cases h <;> rfl
  | entered i =>
    simp only [Stage.advance] at h
    rw [if_neg (hown i rfl)] at h
    cases h
    rfl
  | missed => exact absurd rfl hmissed
  | waiting i =>
    obtain ⟨n, -, h⟩ := Option.map_eq_some_iff.1 h
    cases h
    rfl
  | leaving i o => exact absurd rfl (hleaving i o)
  | loading i | done o => cases h
  | _ =>
    cases h
    rfl

/-- Each flight in the table has a caller that is led to it. -/
def Followed (r : Race) : Prop :=
  ∀ k i, r.cache.flights.find? k = some i → 0 < count Stage.led? r.callers i

namespace Followed

variable {r : Race} (hf : r.Followed) {me : Nat} {c : Caller} (hc : r.callers[me]? = some c)

include hf hc

theorem same {d : Caller} {m : MapCache} (ht : m.flights.table = r.cache.flights.table)
    (hd : d.stage.led? = c.stage.led?) : Followed ⟨m, r.callers.set me d⟩ := by
  intro k i hi
  have hi : r.cache.flights.find? k = some i := by
    rw [Flights.find?, ← ht]
    exact hi
  have hpos := hf k i hi
  have hplace := count_place Stage.led? hc d i
  rw [hd] at hplace
  change 0 < count Stage.led? (r.callers.set me d) i
  omega

theorem enter (hs : c.stage = .missed) : Followed ⟨(r.cache.enter c.key).2,
    r.callers.set me { c with stage := .entered (r.cache.enter c.key).1 }⟩ := by
  intro l j hj
  have hplace := count_place Stage.led? hc
    { c with stage := .entered (r.cache.enter c.key).1 } j
  rw [hs] at hplace
  simp only [Stage.led?, part_none, part_some] at hplace
  change 0 < count Stage.led? (r.callers.set me _) j
  have hj : (r.cache.flights.enter c.key).2.find? l = some j := hj
  by_cases hl : l = c.key
  · rw [hl, Flights.find?_enter] at hj
    have hij : j = (r.cache.enter c.key).1 := (Option.some.inj hj).symm
    rw [if_pos hij] at hplace
    omega
  · rw [Flights.find?_enter_other hl] at hj
    have hpos := hf l j hj
    omega

theorem leave (h : Reachable r) {i : Nat} {o : Outcome} (hs : c.stage = .leaving i o)
    (htidy : 2 ≤ count Stage.led? r.callers i ∨ count Stage.departing? r.callers i = 0) :
    Followed ⟨r.cache.leave c.key i, r.callers.set me { c with stage := .unlocking i o }⟩ := by
  intro l j hj
  have hr := h.sound
  have hj : (r.cache.flights.leave c.key i).find? l = some j := hj
  have hplace := count_place Stage.led? hc { c with stage := .unlocking i o } j
  rw [hs] at hplace
  simp only [Stage.led?, part_none, part_some] at hplace
  change 0 < count Stage.led? (r.callers.set me _) j
  have hpos := hf l j (Flights.find?_of_leave hj)
  by_cases hij : j = i
  · subst hij
    rw [if_pos rfl] at hplace
    rcases Nat.lt_or_ge 1 (count Stage.led? r.callers j) with hmore | hone
    · omega
    · -- The caller is the only one, so the flight has left the table, against what was assumed.
      have hfind : r.cache.flights.find? c.key = some j :=
        hr.led c (List.mem_of_getElem? hc) j (by rw [hs]; rfl)
      have hsum := count_flight? r.callers j
      have hheld := hr.held j
      have hle := h.tabled_le j
      have hin := Flights.tabled_pos hfind
      have htwo : r.cache.flights.holders j = 2 := by omega
      have hout := Flights.tabled_leave hr.flights hfind htwo
      have hstill := Flights.tabled_pos hj
      omega
  · rw [if_neg hij] at hplace
    omega

theorem advance (h : Reachable r) {s : Stage} {m : MapCache}
    (hs : c.stage.advance me c.key r.cache = some (s, m))
    (htidy : Tidy r ⟨m, r.callers.set me { c with stage := s }⟩) :
    Followed ⟨m, r.callers.set me { c with stage := s }⟩ := by
  by_cases hmissed : c.stage = .missed
  · rw [hmissed] at hs
    cases hs
    exact hf.enter hc hmissed
  · by_cases hleaving : ∃ i o, c.stage = .leaving i o
    · obtain ⟨i, o, hst⟩ := hleaving
      rw [hst] at hs
      cases hs
      have hself := set_caller_self hc { c with stage := .unlocking i o }
      have hmem : (c, ({ c with stage := .unlocking i o } : Caller)) ∈
          r.callers.zip (r.callers.set me { c with stage := .unlocking i o }) :=
        List.mem_of_getElem? (List.getElem?_zip_eq_some.2 ⟨hc, hself⟩)
      have ht := htidy _ hmem i (by rw [hst]; rfl)
      rcases ht with hled | ht
      · cases hled
      · exact hf.leave hc h hst ht
    · have hown (i : Nat) (hi : c.stage = .entered i) : r.cache.flights.loader? i ≠ some me := by
        obtain ⟨k, st⟩ := c
        cases hi
        exact h.attended.not_own hc
      obtain ⟨hled, htable⟩ := advance_led hs hmissed (fun i o h => hleaving ⟨i, o, h⟩) hown
      exact hf.same hc htable hled

end Followed

theorem Orderly.followed {r : Race} (h : Orderly r) : r.Followed := by
  induction h with
  | start name allowNull es ks =>
    intro k i hi
    cases hi
  | @next r r' h hm htidy ih =>
    cases hm with
    | step me hs =>
      obtain ⟨c, s, m, hc, hadv, rfl⟩ := step?_cases hs
      exact ih.advance hc h.reachable hadv htidy
    | endLoad me l hs =>
      obtain ⟨k, i, hc, rfl⟩ := endLoad?_cases hs
      exact ih.same hc rfl rfl
    | again l hc => exact ih.same hc rfl rfl
    | join l =>
      intro k i hi
      have hpos := ih k i hi
      change 0 < count Stage.led? (r.callers ++ [{ key := l }]) i
      rw [count, List.countP_append]
      exact Nat.lt_add_right _ hpos
    | edit e =>
      intro k i hi
      have hi : (e.apply r.cache).flights.find? k = some i := hi
      rw [edit_flights] at hi
      exact ih k i hi

def overlap : List Turn :=
  [.step 0, .step 0, .step 0, .step 0, .step 0, .step 0, .step 1, .step 1, .step 1,
    .endLoad 0 (.ok (.bool true)), .step 0, .step 0, .step 0, .step 0, .step 1, .step 1, .step 1,
    .step 1, .step 1, .step 0]

theorem flight_left : ∃ r : Race, Reachable r ∧ (∀ c ∈ r.callers, ∃ o, c.stage = .done o) ∧
    r.cache.flights.table = [(.plain .null, 0)] := by
  have hlast : twoCallers.turns? overlap = some ⟨⟨"prices", true,
      [(.plain .null, .bool true)], ⟨1, [(.plain .null, 0)], [(0, { holders := 1 })]⟩⟩,
      [⟨.plain .null, .done (.ok (.bool true))⟩, ⟨.plain .null, .done (.ok (.bool true))⟩]⟩ :=
    rfl
  refine ⟨_, twoCallers_reachable.turns hlast, fun c hc => ?_, rfl⟩
  simp only [List.mem_cons, List.not_mem_nil, or_false, or_self] at hc
  exact ⟨_, by rw [hc]⟩

/-- Once all callers are through, the table holds one flight at most for each key, which is free and
    which nobody else holds; and it is empty if callers have left their flights in good order. -/
theorem flights_left {r : Race} (h : Reachable r)
    (hdone : ∀ c ∈ r.callers, ∃ o, c.stage = .done o) :
    (r.cache.flights.table.map (·.1)).Nodup ∧
    (∀ e ∈ r.cache.flights.table, r.cache.flights.flight? e.2 = some { holders := 1 }) ∧
    (Orderly r → r.cache.flights.table = []) := by
  have hr := h.sound
  have hnone {f : Stage → Option Nat} (hf : ∀ o, f (.done o) = none) (i : Nat) :
      count f r.callers i = 0 := by
    refine List.countP_eq_zero.2 fun c hc he => ?_
    obtain ⟨o, ho⟩ := hdone c hc
    rw [ho, hf o] at he
    cases of_decide_eq_true he
  refine ⟨hr.flights.keys, fun e he => ?_, fun ho => ?_⟩
  · -- Nobody is led to a flight any more, so the table is its only holder.
    have htabled : r.cache.flights.tabled e.2 = 1 := by
      have hle := h.tabled_le e.2
      have hpos : 0 < r.cache.flights.tabled e.2 :=
        List.countP_pos_iff.2 ⟨e, he, decide_eq_true rfl⟩
      omega
    have hheld := hr.held e.2
    rw [hnone (fun _ => rfl), htabled] at hheld
    have hpos : 0 < r.cache.flights.holders e.2 := by omega
    obtain ⟨f, hf⟩ := Flights.holders_pos hpos
    have hone : f.holders = 1 := by
      rw [Flights.holders, hf] at hheld
      exact hheld.symm
    -- Only a caller in the middle of a load locks or marks a flight.
    have hlocked : f.locked = false := by
      cases hl : f.locked with
      | false => rfl
      | true =>
        have hi : r.cache.flights.isLocked e.2 = true := by rw [Flights.isLocked, hf]; exact hl
        obtain ⟨w, c, hc, hci⟩ := h.attended.locks e.2 hi
        obtain ⟨o, ho⟩ := hdone c (List.mem_of_getElem? hc)
        rw [ho] at hci
        cases hci
    have hloader : f.loader = none := by
      cases hl : f.loader with
      | none => rfl
      | some w =>
        have hi : r.cache.flights.loader? e.2 = some w := by rw [Flights.loader?, hf]; exact hl
        obtain ⟨c, hc, hci⟩ := h.attended.marks e.2 w hi
        obtain ⟨o, ho⟩ := hdone c (List.mem_of_getElem? hc)
        rw [ho] at hci
        cases hci
    rw [hf]
    obtain ⟨locked, loader, holders⟩ := f
    cases hone
    cases hlocked
    cases hloader
    rfl
  · cases ht : r.cache.flights.table with
    | nil => rfl
    | cons e t =>
      have hfind : r.cache.flights.find? e.1 = some e.2 := by
        rw [Flights.find?, ht, List.find?_cons_of_pos (by simp), Option.map_some]
      have hpos := ho.followed e.1 e.2 hfind
      rw [hnone fun _ => rfl] at hpos
      cases hpos

def tidyTurns (r : Race) : List Turn → Bool
  | [] => true
  | a :: as => (r.turn? a).all fun r' => decide (Tidy r r') && r'.tidyTurns as

theorem Orderly.turns {r r' : Race} (h : Orderly r) {as : List Turn} (hs : r.turns? as = some r')
    (ht : r.tidyTurns as = true) : Orderly r' := by
  induction as generalizing r with
  | nil =>
    cases hs
    exact h
  | cons a as ih =>
    obtain ⟨r₁, h₁, hrest⟩ := Option.bind_eq_some_iff.1 hs
    rw [tidyTurns, h₁, Option.all_some, Bool.and_eq_true] at ht
    have hm : Move r r₁ := by
      cases a with
      | step me => exact .step me h₁
      | endLoad me l => exact .endLoad me l h₁
    exact ih (h.next hm (of_decide_eq_true ht.1)) hrest ht.2

def inOrder : List Turn :=
  [.step 0, .step 0, .step 0, .step 0, .step 0, .step 0, .step 1, .step 1, .step 1,
    .endLoad 0 (.ok (.bool true)), .step 0, .step 0, .step 0, .step 0, .step 1, .step 1, .step 0,
    .step 1, .step 1, .step 1]

theorem flights_left_none : ∃ r : Race, Orderly r ∧ r.callers.length = 2 ∧
    (∀ c ∈ r.callers, ∃ o, c.stage = .done o) ∧ r.cache.flights.table = [] := by
  have hlast : twoCallers.turns? inOrder = some ⟨⟨"prices", true, [(.plain .null, .bool true)],
      { fresh := 1 }⟩, [⟨.plain .null, .done (.ok (.bool true))⟩,
      ⟨.plain .null, .done (.ok (.bool true))⟩]⟩ := rfl
  have hfirst : Orderly twoCallers := .start "prices" true [] [.plain .null, .plain .null]
  have hend := hfirst.turns hlast rfl
  have hdone : ∀ c ∈ [(⟨.plain .null, .done (.ok (.bool true))⟩ : Caller),
      ⟨.plain .null, .done (.ok (.bool true))⟩], ∃ o, c.stage = .done o := by
    intro c hc
    simp only [List.mem_cons, List.not_mem_nil, or_false, or_self] at hc
    exact ⟨_, by rw [hc]⟩
  exact ⟨_, hend, rfl, hdone, (flights_left hend.reachable hdone).2.2 hend⟩

end Race

end CachedCalls
