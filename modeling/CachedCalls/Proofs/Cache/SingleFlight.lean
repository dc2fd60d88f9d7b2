import CachedCalls.Cache.Race
import CachedCalls.Proofs.Cache.Flights

/-!
Callers that race for a map, each at any point of its way and in any order, while other threads
change the entries. At most one of them loads a value for a key at a time.
-/

set_option autoImplicit false

namespace CachedCalls

namespace Race

inductive Edit where
  | put (k : Key) (v : Value)
  | putIfAbsent (k : Key) (v : Value)
  | evict (k : Key)
  | evictIfPresent (k : Key)
  | clear
  | invalidate

def Edit.apply (c : MapCache) : Edit → MapCache
  | put k v =>
    match c.put k v with
    | .ok c => c
    | .error _ => c
  | putIfAbsent k v =>
    match c.putIfAbsent k v with
    | .ok (_, c) => c
    | .error _ => c
  | evict k => c.evict k
  | evictIfPresent k => (c.evictIfPresent k).2
  | clear => c.clear
  | invalidate => c.invalidate.2

/-- One move in a race. A caller takes a step, its load ends, or, being done, it calls again; another
    caller comes in; another thread changes the entries. -/
inductive Move (r : Race) : Race → Prop where
  | step {r' : Race} (me : Nat) : r.step? me = some r' → Move r r'
  | endLoad {r' : Race} (me : Nat) (l : Except String Value) : r.endLoad? me l = some r' → Move r r'
  | again {me : Nat} {k : Key} {o : Outcome} (l : Key) :
      r.callers[me]? = some ⟨k, .done o⟩ → Move r { r with callers := r.callers.set me { key := l } }
  | join (k : Key) : Move r { r with callers := r.callers ++ [{ key := k }] }
  | edit (e : Edit) : Move r { r with cache := e.apply r.cache }

/-- What comes of callers of these keys at a cache which nobody is loading from. -/
inductive Reachable : Race → Prop where
  | start (name : String) (allowNull : Bool) (es : Entries) (ks : List Key) :
      Reachable ⟨⟨name, allowNull, es, {}⟩, ks.map fun k => { key := k }⟩
  | next {r r' : Race} : Reachable r → Move r r' → Reachable r'

namespace Stage

def flight? : Stage → Option Nat
  | start | missed | done _ => none
  | entered i | waiting i | locked i | ready i | loading i | loaded i _ | keeping i _ | leaving i _
  | unlocking i _ | lettingGo i _ => some i

def led? : Stage → Option Nat
  | start | missed | unlocking _ _ | lettingGo _ _ | done _ => none
  | entered i | waiting i | locked i | ready i | loading i | loaded i _ | keeping i _
  | leaving i _ => some i

def lock? : Stage → Option Nat
  | start | missed | entered _ | waiting _ | lettingGo _ _ | done _ => none
  | locked i | ready i | loading i | loaded i _ | keeping i _ | leaving i _ | unlocking i _ => some i

theorem flight?_of_lock? {s : Stage} {i : Nat} (h : s.lock? = some i) : s.flight? = some i := by
  cases s <;> first | exact h | cases h

theorem flight?_of_led? {s : Stage} {i : Nat} (h : s.led? = some i) : s.flight? = some i := by
  cases s <;> first | exact h | cases h

theorem lock?_of_isLoading {s : Stage} (h : s.isLoading = true) : ∃ i, s.lock? = some i ∧
    s.led? = some i := by
  cases s <;> first | exact ⟨_, rfl, rfl⟩ | cases h

end Stage

theorem keep_flights (c : MapCache) (k : Key) (l : Except String Value) :
    (c.keep k l).2.flights = c.flights := by
  cases l with
  | error e => rfl
  | ok v =>
    simp only [MapCache.keep, MapCache.put]
    cases c.check v <;> rfl

theorem edit_flights (c : MapCache) (e : Edit) : (e.apply c).flights = c.flights := by
  cases e with
  | put k v =>
    simp only [Edit.apply, MapCache.put]
    cases c.check v <;> rfl
  | putIfAbsent k v =>
    simp only [Edit.apply, MapCache.putIfAbsent]
    cases c.check v with
    | error e => rfl
    | ok u =>
      simp only [Except.map]
      cases c.get k <;> rfl
  | _ => rfl

def count (f : Stage → Option Nat) (cs : List Caller) (i : Nat) : Nat :=
  cs.countP fun c => decide (f c.stage = some i)

def part (x : Option Nat) (i : Nat) : Nat := if x = some i then 1 else 0

theorem part_none (i : Nat) : part none i = 0 := rfl

theorem part_some (i j : Nat) : part (some i) j = if j = i then 1 else 0 := by
  by_cases h : j = i
  · rw [part, h, if_pos rfl, if_pos rfl]
  · rw [part, if_neg h, if_neg fun hs => h (Option.some.inj hs).symm]

theorem count_place (f : Stage → Option Nat) {cs : List Caller} {me : Nat} {c : Caller}
    (hc : cs[me]? = some c) (d : Caller) (i : Nat) :
    count f (cs.set me d) i + part (f c.stage) i = count f cs i + part (f d.stage) i := by
  obtain ⟨hlt, rfl⟩ := List.getElem?_eq_some_iff.1 hc
  have hle := List.boole_getElem_le_countP (p := fun c => decide (f c.stage = some i)) hlt
  unfold count part
  rw [List.countP_set hlt]
  simp only [decide_eq_true_eq] at hle ⊢
  omega

theorem count_le {f g : Stage → Option Nat} {i : Nat} (h : ∀ {s}, f s = some i → g s = some i)
    (cs : List Caller) : count f cs i ≤ count g cs i :=
  List.countP_mono_left fun _ _ hc => decide_eq_true (h (of_decide_eq_true hc))

theorem count_pos {f : Stage → Option Nat} {i : Nat} {cs : List Caller} {c : Caller} (hc : c ∈ cs)
    (h : f c.stage = some i) : 0 < count f cs i :=
  List.countP_pos_iff.2 ⟨c, hc, decide_eq_true h⟩

/-- All holders of a flight are accounted for, and its lock is with one of them at most. -/
structure Sound (r : Race) : Prop where
  flights : r.cache.flights.WF
  held : ∀ i, count Stage.flight? r.callers i + r.cache.flights.tabled i = r.cache.flights.holders i
  led : ∀ c ∈ r.callers, ∀ i, c.stage.led? = some i → r.cache.flights.find? c.key = some i
  locks : ∀ i, count Stage.lock? r.callers i ≤ (r.cache.flights.isLocked i).toNat

namespace Sound

variable {r : Race} (hr : r.Sound) {me : Nat} {c : Caller} (hc : r.callers[me]? = some c)

include hr

theorem holders_pos {c : Caller} (hc : c ∈ r.callers) {i : Nat} (hi : c.stage.flight? = some i) :
    0 < r.cache.flights.holders i := by
  have hp : 0 < count Stage.flight? r.callers i := count_pos hc hi
  have he := hr.held i
  omega

include hc

theorem move {d : Caller} {m : MapCache} (hw : m.flights.WF)
    (hheld : ∀ i, m.flights.holders i + r.cache.flights.tabled i + part c.stage.flight? i =
      r.cache.flights.holders i + m.flights.tabled i + part d.stage.flight? i)
    (hled : ∀ b ∈ r.callers.set me d, ∀ i, b.stage.led? = some i → m.flights.find? b.key = some i)
    (hlocks : ∀ i, 0 < m.flights.holders i →
      (r.cache.flights.isLocked i).toNat + part d.stage.lock? i ≤
        (m.flights.isLocked i).toNat + part c.stage.lock? i) :
    Sound ⟨m, r.callers.set me d⟩ := by
  have hall (i : Nat) : count Stage.flight? (r.callers.set me d) i + m.flights.tabled i =
      m.flights.holders i := by
    have hp := count_place Stage.flight? hc d i
    have ho := hr.held i
    have hn := hheld i
    omega
  refine ⟨hw, hall, hled, fun i => ?_⟩
  change count Stage.lock? (r.callers.set me d) i ≤ (m.flights.isLocked i).toNat
  -- The lock of a flight that nobody holds any more does not count.
  by_cases hpos : 0 < m.flights.holders i
  · have hp := count_place Stage.lock? hc d i
    have ho := hr.locks i
    have hn := hlocks i hpos
    omega
  · have hle : count Stage.lock? (r.callers.set me d) i ≤ count Stage.flight? (r.callers.set me d) i :=
      count_le Stage.flight?_of_lock? _
    have hi := hall i
    omega

theorem stay {s : Stage} {m : MapCache} (hw : m.flights.WF)
    (hh : ∀ i, m.flights.holders i = r.cache.flights.holders i)
    (ht : m.flights.table = r.cache.flights.table) (hf : s.flight? = c.stage.flight?)
    (hs : s.led? = none ∨ s.led? = c.stage.led?)
    (hlocks : ∀ i, (r.cache.flights.isLocked i).toNat + part s.lock? i ≤
      (m.flights.isLocked i).toNat + part c.stage.lock? i) :
    Sound ⟨m, r.callers.set me { c with stage := s }⟩ := by
  have hfind (k : Key) : m.flights.find? k = r.cache.flights.find? k := by
    rw [Flights.find?, Flights.find?, ht]
  refine hr.move hc hw (fun i => ?_) (fun b hb i hi => ?_) fun i _ => hlocks i
  · rw [hh, Flights.tabled, Flights.tabled, ht, hf]
  · rw [hfind]
    obtain hb | rfl := List.mem_or_eq_of_mem_set hb
    · exact hr.led b hb i hi
    · obtain hs | hs := hs
      · rw [hs] at hi
        cases hi
      · exact hr.led c (List.mem_of_getElem? hc) i (hs ▸ hi)

theorem same {s : Stage} {m : MapCache} (hm : m.flights = r.cache.flights)
    (hf : s.flight? = c.stage.flight?) (hs : s.led? = none ∨ s.led? = c.stage.led?)
    (hl : s.lock? = c.stage.lock?) : Sound ⟨m, r.callers.set me { c with stage := s }⟩ := by
  refine hr.stay hc (hm ▸ hr.flights) (fun i => by rw [hm]) (by rw [hm]) hf hs fun i => ?_
  exact Nat.le_of_eq (by rw [hm, hl])

theorem mark (i : Nat) (who : Option Nat) {s : Stage} (hf : s.flight? = c.stage.flight?)
    (hs : s.led? = c.stage.led?) (hl : s.lock? = c.stage.lock?) :
    Sound ⟨r.cache.mark i who, r.callers.set me { c with stage := s }⟩ := by
  have hw := hr.flights.modify i fun f => { f with loader := who }
  refine hr.stay hc (m := r.cache.mark i who) hw (fun j => ?_) rfl hf (.inr hs) fun j => ?_
  · exact Flights.holders_modify i _ j fun _ => rfl
  · have hj : (r.cache.mark i who).flights.isLocked j = r.cache.flights.isLocked j :=
      Flights.isLocked_modify i _ j fun _ => rfl
    exact Nat.le_of_eq (by rw [hl, hj])

theorem enter (hs : c.stage = .missed) : Sound ⟨(r.cache.enter c.key).2,
    r.callers.set me { c with stage := .entered (r.cache.enter c.key).1 }⟩ := by
  have hlive : ∀ i, r.cache.flights.find? c.key = some i → 0 < r.cache.flights.holders i := by
    intro i hi
    have ht := Flights.tabled_pos hi
    have he := hr.held i
    omega
  refine hr.move hc (hr.flights.enter c.key) (fun i => ?_) (fun b hb i hi => ?_) fun i _ => ?_
  · rw [hs]
    simp only [Stage.flight?, part_none, part_some]
    exact Flights.holders_enter hr.flights hlive i
  · obtain hb | rfl := List.mem_or_eq_of_mem_set hb
    · exact Flights.find?_enter_of_some (hr.led b hb i hi)
    · cases hi
      exact Flights.find?_enter c.key
  · rw [hs]
    exact Nat.le_of_eq (congrArg Bool.toNat (Flights.isLocked_enter hr.flights c.key i).symm)

theorem lock {i : Nat} (hs : c.stage = .waiting i) {m : MapCache} (hm : r.cache.lock i = some m) :
    Sound ⟨m, r.callers.set me { c with stage := .locked i }⟩ := by
  have hpos : 0 < r.cache.flights.holders i :=
    hr.holders_pos (List.mem_of_getElem? hc) (by rw [hs]; rfl)
  unfold MapCache.lock at hm
  cases hfree : r.cache.flights.isLocked i with
  | true =>
    rw [hfree] at hm
    cases hm
  | false =>
    rw [hfree] at hm
    cases hm
    have hw := hr.flights.modify i fun f => { f with locked := true }
    refine hr.stay hc (m := { r.cache with flights := r.cache.flights.setLocked i true }) hw
      (fun j => ?_) rfl (by rw [hs]; rfl) (.inr (by rw [hs]; rfl)) fun j => ?_
    · exact Flights.holders_modify i _ j fun _ => rfl
    · rw [Flights.isLocked_setLocked hpos true j, hs]
      simp only [Stage.lock?, part_none, part_some]
      by_cases h : j = i
      · rw [if_pos h, if_pos h, h, hfree]
        decide
      · exact Nat.le_of_eq (by rw [if_neg h, if_neg h])

theorem leave {i : Nat} {o : Outcome} (hs : c.stage = .leaving i o) :
    Sound ⟨r.cache.leave c.key i, r.callers.set me { c with stage := .unlocking i o }⟩ := by
  have hfind : r.cache.flights.find? c.key = some i :=
    hr.led c (List.mem_of_getElem? hc) i (by rw [hs]; rfl)
  refine hr.move hc (hr.flights.leave c.key i) (fun j => ?_) (fun b hb j hj => ?_) fun j _ => ?_
  · rw [hs]
    exact congrArg (· + part (some i) j) (Flights.holders_leave hr.flights c.key i j)
  · -- Where the table and one caller are all that hold the flight, no other caller is led to it.
    have hother : r.cache.flights.holders i = 2 → j ≠ i := by
      rintro htwo rfl
      have hplace := count_place Stage.led? hc { c with stage := .unlocking j o } j
      have hb' := count_pos hb hj
      have hle : count Stage.led? r.callers j ≤ count Stage.flight? r.callers j :=
        count_le Stage.flight?_of_led? _
      have hh := hr.held j
      have ht := Flights.tabled_pos hfind
      simp only [hs, Stage.led?, part_none, part_some, if_true] at hplace
      omega
    obtain hb | rfl := List.mem_or_eq_of_mem_set hb
    · exact Flights.find?_leave (hr.led b hb j hj) hother
    · cases hj
  · rw [hs]
    exact Nat.le_of_eq (congrArg (·.toNat + part (some i) j)
      (Flights.isLocked_leave c.key i j).symm)

theorem unlock {i : Nat} {o : Outcome} (hs : c.stage = .unlocking i o) :
    Sound ⟨r.cache.unlock i, r.callers.set me { c with stage := .lettingGo i o }⟩ := by
  have hw := hr.flights.modify i fun f => { f with locked := false }
  have hpos : 0 < r.cache.flights.holders i :=
    hr.holders_pos (List.mem_of_getElem? hc) (by rw [hs]; rfl)
  refine hr.stay hc (m := r.cache.unlock i) hw (fun j => ?_) rfl (by rw [hs]; rfl) (.inl rfl)
    fun j => ?_
  · exact Flights.holders_modify i _ j fun _ => rfl
  · have hj : (r.cache.unlock i).flights.isLocked j = _ := Flights.isLocked_setLocked hpos false j
    rw [hj, hs]
    simp only [Stage.lock?, part_none, part_some]
    by_cases h : j = i
    · rw [if_pos h, if_pos h]
      exact Bool.toNat_le _
    · exact Nat.le_of_eq (by rw [if_neg h, if_neg h])

theorem letGo {i : Nat} {o : Outcome} (hs : c.stage = .lettingGo i o) :
    Sound ⟨r.cache.letGo i, r.callers.set me { c with stage := .done o }⟩ := by
  have hpos : 0 < r.cache.flights.holders i :=
    hr.holders_pos (List.mem_of_getElem? hc) (by rw [hs]; rfl)
  refine hr.move hc (hr.flights.letGo i) (fun j => ?_) (fun b hb j hj => ?_) fun j hj => ?_
  · have hh : (r.cache.letGo i).flights.holders j = _ := Flights.holders_letGo hr.flights i j
    rw [hh, hs]
    simp only [Stage.flight?, part_none, part_some]
    change _ = _ + r.cache.flights.tabled j + 0
    by_cases h : j = i
    · subst h
      rw [if_pos rfl, if_pos rfl]
      omega
    · rw [if_neg h, if_neg h]
  · obtain hb | rfl := List.mem_or_eq_of_mem_set hb
    · exact hr.led b hb j hj
    · cases hj
  · rw [hs]
    exact Nat.le_of_eq (congrArg Bool.toNat (Flights.isLocked_letGo hr.flights hj).symm)

theorem advance {s : Stage} {m : MapCache} (hs : c.stage.advance me c.key r.cache = some (s, m)) :
    Sound ⟨m, r.callers.set me { c with stage := s }⟩ := by
  obtain ⟨k, stage⟩ := c
  cases stage with
  | start =>
    simp only [Stage.advance] at hs
    split at hs <;> cases hs
    · exact hr.same hc rfl rfl (.inl rfl) rfl
    · exact hr.same hc rfl rfl (.inl rfl) rfl
  | missed =>
    cases hs
    exact hr.enter hc rfl
  | entered i =>
    simp only [Stage.advance] at hs
    split at hs <;> cases hs
    · exact hr.same hc rfl rfl (.inl rfl) rfl
    · exact hr.same hc rfl rfl (.inr rfl) rfl
  | waiting i =>
    obtain ⟨m', hm, h⟩ := Option.map_eq_some_iff.1 hs
    cases h
    exact hr.lock hc rfl hm
  | locked i =>
    simp only [Stage.advance] at hs
    split at hs <;> cases hs
    · exact hr.same hc rfl rfl (.inr rfl) rfl
    · exact hr.same hc rfl rfl (.inr rfl) rfl
  | ready i =>
    cases hs
    exact hr.mark hc i (some me) rfl rfl rfl
  | loading i => cases hs
  | loaded i l =>
    cases hs
    exact hr.mark hc i none rfl rfl rfl
  | keeping i l =>
    cases hs
    exact hr.same hc (keep_flights r.cache k l) rfl (.inr rfl) rfl
  | leaving i o =>
    cases hs
    exact hr.leave hc rfl
  | unlocking i o =>
    cases hs
    exact hr.unlock hc rfl
  | lettingGo i o =>
    cases hs
    exact hr.letGo hc rfl
  | done o => cases hs

omit hc

theorem step {r' : Race} (h : r.step? me = some r') : r'.Sound := by
  obtain ⟨c, hc, h⟩ := Option.bind_eq_some_iff.1 h
  obtain ⟨⟨s, m⟩, hs, h⟩ := Option.bind_eq_some_iff.1 h
  cases h
  exact hr.advance hc hs

theorem endLoad {l : Except String Value} {r' : Race} (h : r.endLoad? me l = some r') :
    r'.Sound := by
  obtain ⟨⟨k, stage⟩, hc, h⟩ := Option.bind_eq_some_iff.1 h
  obtain ⟨s, hs, h⟩ := Option.bind_eq_some_iff.1 h
  cases h
  cases stage <;> cases hs
  exact hr.same hc rfl rfl (.inr rfl) rfl

theorem again {k l : Key} {o : Outcome} (hc : r.callers[me]? = some ⟨k, .done o⟩) :
    Sound { r with callers := r.callers.set me { key := l } } := by
  refine hr.move hc hr.flights (fun i => rfl) (fun b hb i hi => ?_) fun i _ => Nat.le_refl _
  obtain hb | rfl := List.mem_or_eq_of_mem_set hb
  · exact hr.led b hb i hi
  · cases hi

theorem join (k : Key) : Sound { r with callers := r.callers ++ [{ key := k }] } := by
  have hcount (f : Stage → Option Nat) (hf : f .start = none) (i : Nat) :
      count f (r.callers ++ [{ key := k }]) i = count f r.callers i := by
    rw [count, List.countP_append, List.countP_singleton, hf]
    rfl
  refine ⟨hr.flights, fun i => ?_, fun c hc i hi => ?_, fun i => ?_⟩
  · rw [hcount _ rfl]
    exact hr.held i
  · obtain hc | hc := List.mem_append.1 hc
    · exact hr.led c hc i hi
    · cases List.mem_singleton.1 hc
      cases hi
  · rw [hcount _ rfl]
    exact hr.locks i

theorem edit (e : Edit) : Sound { r with cache := e.apply r.cache } := by
  have hf := edit_flights r.cache e
  refine ⟨hf ▸ hr.flights, fun i => ?_, fun c hc i hi => ?_, fun i => ?_⟩
  · rw [hf]
    exact hr.held i
  · rw [hf]
    exact hr.led c hc i hi
  · rw [hf]
    exact hr.locks i

end Sound

theorem Sound.start (name : String) (allowNull : Bool) (es : Entries) (ks : List Key) :
    Sound ⟨⟨name, allowNull, es, {}⟩, ks.map fun k => { key := k }⟩ := by
  have hcount (f : Stage → Option Nat) (hf : f .start = none) (i : Nat) :
      count f (ks.map fun k => { key := k }) i = 0 := by
    rw [count, List.countP_map, List.countP_eq_zero]
    intro k _
    simp [hf]
  refine ⟨Flights.wf_empty, fun i => ?_, fun c hc i hi => ?_, fun i => ?_⟩
  · rw [hcount _ rfl]
    rfl
  · obtain ⟨k, -, rfl⟩ := List.mem_map.1 hc
    cases hi
  · rw [hcount _ rfl]
    exact Nat.zero_le _

theorem Sound.next {r r' : Race} (hr : r.Sound) (h : Move r r') : r'.Sound := by
  cases h with
  | step me h => exact hr.step h
  | endLoad me l h => exact hr.endLoad h
  | again l h => exact hr.again h
  | join k => exact hr.join k
  | edit e => exact hr.edit e

theorem Reachable.sound {r : Race} (h : Reachable r) : r.Sound := by
  induction h with
  | start name allowNull es ks => exact Sound.start name allowNull es ks
  | next _ h ih => exact ih.next h

theorem Sound.lock?_of_loading {r : Race} (hr : r.Sound) {c : Caller} (hc : c ∈ r.callers)
    (hl : c.stage.isLoading = true) : c.stage.lock? = r.cache.flights.find? c.key := by
  obtain ⟨i, hlock, hled⟩ := Stage.lock?_of_isLoading hl
  rw [hlock, hr.led c hc i hled]

/-- At any time in any race at most one caller loads a value for a key. Keys are one key here if they
    are equal as terms, so that `0.0` and `-0.0` are two. -/
theorem single_load {r : Race} (h : Reachable r) (k : Key) :
    r.callers.countP (fun c => c.stage.isLoading && decide (c.key = k)) ≤ 1 := by
  have hr := h.sound
  by_cases hnone : ∃ c ∈ r.callers, c.stage.isLoading = true ∧ c.key = k
  · obtain ⟨c, hc, hl, rfl⟩ := hnone
    obtain ⟨i, hlock, -⟩ := Stage.lock?_of_isLoading hl
    have hi := hlock.symm.trans (hr.lock?_of_loading hc hl)
    calc
      r.callers.countP (fun b => b.stage.isLoading && decide (b.key = c.key)) ≤
          count Stage.lock? r.callers i := by
        refine List.countP_mono_left fun b hb hload => ?_
        obtain ⟨hload, hk⟩ := Bool.and_eq_true_iff.1 hload
        refine decide_eq_true ?_
        rw [hr.lock?_of_loading hb hload, of_decide_eq_true hk, hi]
      _ ≤ (r.cache.flights.isLocked i).toNat := hr.locks i
      _ ≤ 1 := Bool.toNat_le _
  · have hzero : r.callers.countP (fun c => c.stage.isLoading && decide (c.key = k)) = 0 := by
      refine List.countP_eq_zero.2 fun c hc hload => hnone ⟨c, hc, ?_⟩
      obtain ⟨hload, hk⟩ := Bool.and_eq_true_iff.1 hload
      exact ⟨hload, of_decide_eq_true hk⟩
    rw [hzero]
    exact Nat.zero_le 1

def steps (r : Race) : List Nat → Option Race
  | [] => some r
  | me :: ms => (r.step? me).bind (·.steps ms)

theorem Reachable.steps {r r' : Race} (h : Reachable r) {l : List Nat} (hs : r.steps l = some r') :
    Reachable r' := by
  induction l generalizing r with
  | nil =>
    cases hs
    exact h
  | cons me ms ih =>
    obtain ⟨r₁, h₁, hs⟩ := Option.bind_eq_some_iff.1 hs
    exact ih (h.next (.step me h₁)) hs

theorem single_load_waiting : ∃ r : Race, Reachable r ∧
    r.callers = [⟨.plain .null, .loading 0⟩, ⟨.plain .null, .waiting 0⟩] ∧
    r.callers.countP (fun c => c.stage.isLoading && decide (c.key = .plain .null)) ≤ 1 := by
  have hstart := Reachable.start "prices" true [] [.plain .null, .plain .null]
  have hr := hstart.steps (l := [0, 0, 0, 0, 0, 0, 1, 1, 1]) rfl
  exact ⟨_, hr, rfl, single_load hr (.plain .null)⟩

end Race

end CachedCalls
