import CachedCalls.Proofs.Cache.Flights
import CachedCalls.Cache.Map

set_option autoImplicit false

namespace CachedCalls

namespace Flights

/-- No flight is locked, and nobody loads under one. -/
def Quiet (fs : Flights) : Prop := ∀ i, fs.isLocked i = false ∧ fs.loader? i = none

theorem Quiet.enter {fs : Flights} (hq : fs.Quiet) (k : Key) : (fs.enter k).2.Quiet := by
  intro j
  unfold Flights.enter
  cases fs.find? k with
  | some i =>
    have hlocked : (fs.modify i fun f => { f with holders := f.holders + 1 }).isLocked j = _ :=
      isLocked_modify i _ j fun _ => rfl
    have hloader : (fs.modify i fun f => { f with holders := f.holders + 1 }).loader? j = _ :=
      loader?_modify i _ j fun _ => rfl
    exact ⟨hlocked.trans (hq j).1, hloader.trans (hq j).2⟩
  | none =>
    have hj := hq j
    unfold isLocked loader? flight? at hj ⊢
    rw [lookup_cons_if]
    by_cases h : j = fs.fresh
    · rw [if_pos h]
      exact ⟨rfl, rfl⟩
    · rw [if_neg h]
      exact hj

theorem quiet_empty : Quiet {} := fun _ => ⟨rfl, rfl⟩

end Flights

namespace MapCache

variable {m : MapCache} {k : Key}

theorem begin_of_get {v : Value} (h : m.get k = some v) : m.begin k = (.answered (.ok v), m) := by
  unfold begin
  rw [h]

theorem begin_of_miss (h : m.get k = none) (hq : m.flights.Quiet) :
    ∃ i fs, m.begin k = (.load i, { m with flights := fs }) := by
  have hi := hq.enter k (m.flights.enter k).1
  have hloader : (m.enter k).2.flights.loader? (m.enter k).1 ≠ some soleCaller := by
    intro hs
    have hnone : (m.enter k).2.flights.loader? (m.enter k).1 = none := hi.2
    rw [hnone] at hs
    cases hs
  have hlock : (m.enter k).2.lock (m.enter k).1 = some { (m.enter k).2 with
      flights := (m.enter k).2.flights.setLocked (m.enter k).1 true } := by
    have hfree : (m.enter k).2.flights.isLocked (m.enter k).1 = false := hi.1
    unfold lock
    rw [hfree]
    rfl
  have hget : MapCache.get { (m.enter k).2 with
      flights := (m.enter k).2.flights.setLocked (m.enter k).1 true } k = none := h
  refine ⟨(m.enter k).1, ((m.enter k).2.flights.setLocked (m.enter k).1 true).setLoader
    (m.enter k).1 (some soleCaller), ?_⟩
  unfold begin
  rw [h]
  simp only [if_neg hloader, hlock, hget]
  rfl

theorem keep_with (m : MapCache) (fs : Flights) (k : Key) (l : Except String Value) :
    ({ m with flights := fs } : MapCache).keep k l =
      ((m.keep k l).1, { (m.keep k l).2 with flights := fs }) := by
  cases l with
  | error e => rfl
  | ok v =>
    cases h : storable m.allowNull m.name v with
    | error e => simp [keep, put, check, h, Except.map]
    | ok u => simp [keep, put, check, h, Except.map, insert]

theorem finish_with (m : MapCache) (fs : Flights) (k : Key) (i : Nat) (l : Except String Value) :
    ∃ fs', ({ m with flights := fs } : MapCache).finish k i l =
      ((m.keep k l).1, { (m.keep k l).2 with flights := fs' }) := by
  have hk := keep_with m (fs.setLoader i none) k l
  refine ⟨(((fs.setLoader i none).leave k i).setLocked i false).letGo i, ?_⟩
  unfold finish
  change ((({ m with flights := fs.setLoader i none } : MapCache).keep k l).1,
    (({ m with flights := fs.setLoader i none } : MapCache).keep k l).2.depart k i) = _
  rw [hk]
  rfl

end MapCache

end CachedCalls
