import CachedCalls.Proofs.Cache.Attendance

/-!
Callers that race for a key which is absent at first. Of each it is noted when its load begins, how
it ends and what is stored of it. One load at most is stored, all callers that get a value get that
one, and the others get the failure of their own load (`loads_agree`).
-/

set_option autoImplicit false

namespace CachedCalls.Race

inductive Note where
  | began (who : Nat)
  | ended (who : Nat) (l : Except String Value)
  | stored (who : Nat) (v : Value)

namespace Note

def who : Note → Nat
  | began w | ended w _ | stored w _ => w

def isBegan : Note → Bool
  | began _ => true
  | ended _ _ | stored _ _ => false

def isStored : Note → Bool
  | stored _ _ => true
  | began _ | ended _ _ => false

end Note

def Caller.notes (k : Key) (m : MapCache) (me : Nat) (c : Caller) : List Note :=
  if c.key = k then
    match c.stage with
    | .ready _ => [.began me]
    | .keeping _ l =>
      match (m.keep k l).1 with
      | .ok v => [.stored me v]
      | .error _ => []
    | _ => []
  else []

/-- A race from when a key is absent and nobody is after it yet, with what is noted of the key. No
    caller calls for the key twice, and no other thread touches its entry. -/
inductive Contest (k : Key) : Race → List Note → Prop where
  | start {r : Race} : Reachable r → r.cache.get k = none →
      (∀ c ∈ r.callers, c.key = k → c.stage = .start) → Contest k r []
  | step {r r' : Race} {t : List Note} {me : Nat} {c : Caller} : Contest k r t →
      r.callers[me]? = some c → r.step? me = some r' → Contest k r' (t ++ c.notes k r.cache me)
  | endLoad {r r' : Race} {t : List Note} {me : Nat} {c : Caller} {l : Except String Value} :
      Contest k r t → r.callers[me]? = some c → r.endLoad? me l = some r' →
      Contest k r' (t ++ if c.key = k then [.ended me l] else [])
  | again {r : Race} {t : List Note} {me : Nat} {j : Key} {o : Outcome} (l : Key) :
      Contest k r t → r.callers[me]? = some ⟨j, .done o⟩ → j ≠ k →
      Contest k { r with callers := r.callers.set me { key := l } } t
  | join {r : Race} {t : List Note} (l : Key) : Contest k r t →
      Contest k { r with callers := r.callers ++ [{ key := l }] } t
  | edit {r : Race} {t : List Note} (e : Edit) : Contest k r t →
      (e.apply r.cache).get k = r.cache.get k → Contest k { r with cache := e.apply r.cache } t

theorem Contest.reachable {k : Key} {r : Race} {t : List Note} (h : Contest k r t) :
    Reachable r := by
  induction h with
  | start hr _ _ => exact hr
  | step _ _ hs ih => exact ih.next (.step _ hs)
  | endLoad _ _ hs ih => exact ih.next (.endLoad _ _ hs)
  | again l _ hc _ ih => exact ih.next (.again l hc)
  | join l _ ih => exact ih.next (.join l)
  | edit e _ _ ih => exact ih.next (.edit e)

/-- How a caller that is through with its load stands to the entry `x` and its own notes: it found
    the entry, it stored it, or its load failed. -/
inductive Settled (x : Option Value) (judge : Except String Value → Outcome) (me : Nat) :
    List Note → Outcome → Prop where
  | found {v : Value} : x = some v → Settled x judge me [] (.ok v)
  | loaded {l : Except String Value} {v : Value} : judge l = .ok v → x = some v →
      Settled x judge me [.began me, .ended me l, .stored me v] (.ok v)
  | failed {l : Except String Value} {e : CacheError} : judge l = .error e →
      Settled x judge me [.began me, .ended me l] (.error e)

def Stage.Fits (x : Option Value) (judge : Except String Value → Outcome) (me : Nat)
    (ns : List Note) : Stage → Prop
  | start | missed | entered _ | waiting _ | locked _ => ns = []
  | ready _ => ns = [] ∧ x = none
  | loading _ => ns = [.began me] ∧ x = none
  | loaded _ l | keeping _ l => ns = [.began me, .ended me l] ∧ x = none
  | leaving _ o | unlocking _ o | lettingGo _ o | done o => Settled x judge me ns o

def notesOf (t : List Note) (me : Nat) : List Note := t.filter fun n => decide (n.who = me)

def judge (m : MapCache) (k : Key) (l : Except String Value) : Outcome := (m.keep k l).1

structure Account (k : Key) (r : Race) (t : List Note) : Prop where
  fits : ∀ (me : Nat) (c : Caller), r.callers[me]? = some c → c.key = k →
    c.stage.Fits (r.cache.get k) (judge r.cache k) me (notesOf t me)
  entry : (r.cache.get k = none ∧ t.filter (·.isStored) = []) ∨
    ∃ w v, r.cache.get k = some v ∧ t.filter (·.isStored) = [.stored w v]
  order : t.Pairwise fun a b => a.isStored = true → b.isBegan = false
  owned : ∀ n ∈ t, ∃ c : Caller, r.callers[n.who]? = some c ∧ c.key = k

/-! What steps do to the cache. -/

theorem keep_cases (m : MapCache) (k : Key) (l : Except String Value) :
    (∃ e, m.keep k l = (.error e, m)) ∨ ∃ v, m.keep k l = (.ok v, m.insert k v) := by
  cases l with
  | error e => exact .inl ⟨_, rfl⟩
  | ok v =>
    simp only [MapCache.keep, MapCache.put]
    cases m.check v with
    | error e => exact .inl ⟨e, rfl⟩
    | ok u => exact .inr ⟨v, rfl⟩

theorem insert_get (m : MapCache) (k l : Key) (v : Value) :
    (m.insert k v).get l = if l = k then some v else m.get l := Entries.get?_put m.entries k l v

def Alike (m m' : MapCache) : Prop := m'.name = m.name ∧ m'.allowNull = m.allowNull

theorem Alike.judge {m m' : MapCache} (h : Alike m m') (k : Key) : judge m' k = judge m k := by
  funext l
  cases l with
  | error e => rfl
  | ok v =>
    simp only [Race.judge, MapCache.keep, MapCache.put, MapCache.check, h.1, h.2]
    cases MapCache.storable m.allowNull m.name v <;> rfl

theorem keep_alike (m : MapCache) (k : Key) (l : Except String Value) : Alike m (m.keep k l).2 := by
  rcases keep_cases m k l with ⟨e, h⟩ | ⟨v, h⟩
  · rw [h]
    exact ⟨rfl, rfl⟩
  · rw [h]
    exact ⟨rfl, rfl⟩

theorem edit_alike (m : MapCache) (e : Edit) : Alike m (e.apply m) := by
  cases e with
  | put k v =>
    simp only [Edit.apply, MapCache.put]
    cases m.check v <;> exact ⟨rfl, rfl⟩
  | putIfAbsent k v =>
    simp only [Edit.apply, MapCache.putIfAbsent]
    cases m.check v with
    | error e => exact ⟨rfl, rfl⟩
    | ok u =>
      simp only [Except.map]
      cases m.get k <;> exact ⟨rfl, rfl⟩
  | _ => exact ⟨rfl, rfl⟩

theorem lock_some {m m' : MapCache} {i : Nat} (h : m.lock i = some m') :
    m' = { m with flights := m.flights.setLocked i true } := by
  unfold MapCache.lock at h
  split at h
  · cases h
  · exact (Option.some.inj h).symm

theorem advance_keeping (me : Nat) (k : Key) (i : Nat) (l : Except String Value) (m : MapCache) :
    (Stage.keeping i l).advance me k m = some (.leaving i (m.keep k l).1, (m.keep k l).2) := rfl

theorem advance_alike {me : Nat} {k : Key} {s s' : Stage} {m m' : MapCache}
    (h : s.advance me k m = some (s', m')) : Alike m m' := by
  cases s with
  | start | locked i | entered i =>
    simp only [Stage.advance] at h
    split at h <;> cases h <;> exact ⟨rfl, rfl⟩
  | waiting i =>
    obtain ⟨n, hn, h⟩ := Option.map_eq_some_iff.1 h
    cases h
    rw [lock_some hn]
    exact ⟨rfl, rfl⟩
  | keeping i l =>
    cases h
    exact keep_alike m k l
  | loading i | done o => cases h
  | _ =>
    cases h
    exact ⟨rfl, rfl⟩

theorem advance_get {me : Nat} {k : Key} {s s' : Stage} {m m' : MapCache}
    (h : s.advance me k m = some (s', m')) {j : Key}
    (hj : ∀ i l v, s = .keeping i l → m.keep k l = (.ok v, m.insert k v) → j ≠ k) :
    m'.get j = m.get j := by
  cases s with
  | start | locked i | entered i =>
    simp only [Stage.advance] at h
    split at h <;> cases h <;> rfl
  | waiting i =>
    obtain ⟨n, hn, h⟩ := Option.map_eq_some_iff.1 h
    cases h
    rw [lock_some hn]
    rfl
  | keeping i l =>
    rw [advance_keeping] at h
    rcases keep_cases m k l with ⟨e, hk⟩ | ⟨v, hk⟩
    · rw [hk] at h
      cases h
      rfl
    · have hne := hj i l v rfl hk
      rw [hk] at h
      cases h
      exact (insert_get m k j v).trans (if_neg hne)
  | loading i | done o => cases h
  | _ =>
    cases h
    rfl

/-! What steps do to the notes. -/

theorem notesOf_append (t ns : List Note) (me : Nat) :
    notesOf (t ++ ns) me = notesOf t me ++ notesOf ns me := List.filter_append ..

theorem mem_notesOf {t : List Note} {n : Note} (hn : n ∈ t) : n ∈ notesOf t n.who :=
  List.mem_filter.2 ⟨hn, decide_eq_true rfl⟩

theorem notesOf_self {ns : List Note} {me : Nat} (h : ∀ n ∈ ns, n.who = me) :
    notesOf ns me = ns := List.filter_eq_self.2 fun n hn => decide_eq_true (h n hn)

theorem notesOf_other {ns : List Note} {me w : Nat} (h : ∀ n ∈ ns, n.who = me) (hw : w ≠ me) :
    notesOf ns w = [] :=
  List.filter_eq_nil_iff.2 fun n hn he => hw ((of_decide_eq_true he).symm.trans (h n hn))

theorem notes_cases {k : Key} {m : MapCache} {me : Nat} {c : Caller} {n : Note}
    (hn : n ∈ c.notes k m me) : c.key = k ∧ ((∃ i, c.stage = .ready i ∧ n = .began me) ∨
      ∃ i l v, c.stage = .keeping i l ∧ (m.keep k l).1 = .ok v ∧ n = .stored me v) := by
  unfold Caller.notes at hn
  by_cases hk : c.key = k
  · rw [if_pos hk] at hn
    refine ⟨hk, ?_⟩
    cases hs : c.stage with
    | ready i =>
      rw [hs] at hn
      exact .inl ⟨i, rfl, List.mem_singleton.1 hn⟩
    | keeping i l =>
      simp only [hs] at hn
      cases ho : (m.keep k l).1 with
      | ok v =>
        rw [ho] at hn
        exact .inr ⟨i, l, v, rfl, ho, List.mem_singleton.1 hn⟩
      | error e =>
        rw [ho] at hn
        cases hn
    | _ =>
      rw [hs] at hn
      cases hn
  · rw [if_neg hk] at hn
    cases hn

theorem notes_who {k : Key} {m : MapCache} {me : Nat} {c : Caller} {n : Note}
    (hn : n ∈ c.notes k m me) : n.who = me := by
  obtain ⟨-, ⟨i, -, rfl⟩ | ⟨i, l, v, -, -, rfl⟩⟩ := notes_cases hn <;> rfl

theorem notes_nil {k : Key} {m : MapCache} {me : Nat} {c : Caller}
    (hready : ∀ i, c.stage ≠ .ready i) (hkeep : ∀ i l, c.stage ≠ .keeping i l) :
    c.notes k m me = [] := by
  refine List.eq_nil_iff_forall_not_mem.2 fun n hn => ?_
  obtain ⟨-, ⟨i, h, -⟩ | ⟨i, l, v, h, -⟩⟩ := notes_cases hn
  · exact hready i h
  · exact hkeep i l h

theorem Sound.alone {r : Race} (hr : r.Sound) {a b i : Nat} {c d : Caller}
    (hc : r.callers[a]? = some c) (hd : r.callers[b]? = some d) (hci : c.stage.lock? = some i)
    (hdi : d.stage.lock? = some i) : b = a := by
  refine Classical.byContradiction fun hne => ?_
  have hplace := count_place Stage.lock? hc { c with stage := .start } i
  have hmem := (set_caller_other hc { c with stage := .start } hne).trans hd
  have hpos := count_pos (List.mem_of_getElem? hmem) hdi
  have hle := hr.locks i
  have hone := Bool.toNat_le (r.cache.flights.isLocked i)
  rw [hci, part_some, if_pos rfl] at hplace
  simp only [Stage.lock?, part_none] at hplace
  omega

theorem Stage.Fits.advance {me : Nat} {k : Key} {s s' : Stage} {m m' : MapCache} {t : List Note}
    (hs : s.Fits (m.get k) (judge m k) me t) (h : s.advance me k m = some (s', m'))
    (hown : ∀ i, s = .entered i → m.flights.loader? i ≠ some me) :
    s'.Fits (m'.get k) (judge m k) me (t ++ Caller.notes k m me ⟨k, s⟩) := by
  cases s with
  | start | locked i =>
    have ht : t = [] := hs
    subst ht
    simp only [Stage.advance] at h
    split at h <;> rename_i hget <;> cases h
    · simpa [Fits, Caller.notes] using Settled.found hget
    · simp [Fits, Caller.notes, hget]
  | entered i =>
    have ht : t = [] := hs
    subst ht
    simp only [Stage.advance] at h
    rw [if_neg (hown i rfl)] at h
    cases h
    simp [Fits, Caller.notes]
  | missed =>
    have ht : t = [] := hs
    subst ht
    cases h
    simp [Fits, Caller.notes]
  | waiting i =>
    have ht : t = [] := hs
    subst ht
    obtain ⟨n, -, h⟩ := Option.map_eq_some_iff.1 h
    cases h
    simp [Fits, Caller.notes]
  | ready i =>
    obtain ⟨rfl, hx⟩ := hs
    cases h
    exact ⟨by simp [Caller.notes], hx⟩
  | loaded i l =>
    obtain ⟨rfl, hx⟩ := hs
    cases h
    exact ⟨by simp [Caller.notes], hx⟩
  | keeping i l =>
    obtain ⟨rfl, hx⟩ := hs
    rw [advance_keeping] at h
    rcases keep_cases m k l with ⟨e, hk⟩ | ⟨v, hk⟩
    · have hj : judge m k l = .error e := congrArg (·.1) hk
      rw [hk] at h
      cases h
      simpa [Fits, Caller.notes, hk] using Settled.failed hj
    · have hj : judge m k l = .ok v := congrArg (·.1) hk
      have hget : (m.insert k v).get k = some v := (insert_get m k k v).trans (if_pos rfl)
      rw [hk] at h
      cases h
      simpa [Fits, Caller.notes, hk] using Settled.loaded hj hget
  | loading i | done o => cases h
  | leaving i o | unlocking i o | lettingGo i o =>
    cases h
    rw [notes_nil, List.append_nil]
    · exact hs
    · rintro j ⟨⟩
    · rintro j l ⟨⟩

/-- A caller that has no lock for a load fits an absent entry as well once another one has stored
    it. -/
theorem Stage.Fits.stored {judge : Except String Value → Outcome} {me : Nat} {ns : List Note}
    {s : Stage} (hs : s.Fits none judge me ns)
    (hfree : ∀ i, s.lock? = some i → s.led? = some i → False) (v : Value) :
    s.Fits (some v) judge me ns := by
  cases s with
  | start | missed | entered i | waiting i | locked i => exact hs
  | ready i | loading i | loaded i l | keeping i l => exact (hfree i rfl rfl).elim
  | leaving i o | unlocking i o | lettingGo i o | done o =>
    have hs : Settled none judge me ns o := hs
    change Settled (some v) judge me ns o
    cases hs with
    | found h => cases h
    | loaded _ h => cases h
    | failed h => exact .failed h

namespace Account

variable {k : Key} {r : Race} {t : List Note} (ha : Account k r t) {me : Nat} {c : Caller}
  (hc : r.callers[me]? = some c)

include ha hc

theorem owned_set {d : Caller} {ns : List Note} (hwho : ∀ n ∈ ns, n.who = me ∧ d.key = k)
    (hkey : (∃ n ∈ t, n.who = me) → d.key = k) (n : Note) (hn : n ∈ t ++ ns) :
    ∃ b : Caller, (r.callers.set me d)[n.who]? = some b ∧ b.key = k := by
  have hself : (r.callers.set me d)[me]? = some d := set_caller_self hc d
  rcases List.mem_append.1 hn with hn | hn
  · by_cases hw : n.who = me
    · exact ⟨d, by rw [hw]; exact hself, hkey ⟨n, hn, hw⟩⟩
    · obtain ⟨b, hb, hbk⟩ := ha.owned n hn
      exact ⟨b, (set_caller_other hc d hw).trans hb, hbk⟩
  · obtain ⟨hw, hk⟩ := hwho n hn
    exact ⟨d, by rw [hw]; exact hself, hk⟩

theorem move {d : Caller} {m : MapCache} {ns : List Note} (hm : Alike r.cache m)
    (hget : m.get k = r.cache.get k) (hwho : ∀ n ∈ ns, n.who = me ∧ d.key = k)
    (hstored : ∀ n ∈ ns, n.isStored = false)
    (hbegan : ∀ n ∈ ns, n.isBegan = true → r.cache.get k = none)
    (hkey : (∃ n ∈ t, n.who = me) → d.key = k)
    (hfits : d.key = k →
      d.stage.Fits (r.cache.get k) (judge r.cache k) me (notesOf t me ++ ns)) :
    Account k ⟨m, r.callers.set me d⟩ (t ++ ns) := by
  have hnone : ns.filter (·.isStored) = [] :=
    List.filter_eq_nil_iff.2 fun n hn => by rw [hstored n hn]; exact Bool.false_ne_true
  have hfilter : (t ++ ns).filter (·.isStored) = t.filter (·.isStored) := by
    rw [List.filter_append, hnone, List.append_nil]
  have hall (n : Note) (hn : n ∈ ns) : n.who = me := (hwho n hn).1
  refine ⟨fun w b hb hbk => ?_, ?_, ?_, fun n hn => ?_⟩
  · change b.stage.Fits (m.get k) (judge m k) w _
    rw [hget, hm.judge, notesOf_append]
    have hb : (r.callers.set me d)[w]? = some b := hb
    rw [set_caller hc] at hb
    by_cases hw : w = me
    · rw [if_pos hw] at hb
      cases hb
      rw [hw, notesOf_self hall]
      exact hfits hbk
    · rw [if_neg hw] at hb
      rw [notesOf_other hall hw, List.append_nil]
      exact ha.fits w b hb hbk
  · change (m.get k = none ∧ _) ∨ ∃ w v, m.get k = some v ∧ _
    rw [hget, hfilter]
    exact ha.entry
  · refine List.pairwise_append.2 ⟨ha.order, ?_, fun a hat b hb hst => ?_⟩
    · have htrivial : ns.Pairwise fun _ _ => True := List.pairwise_of_forall fun _ _ => trivial
      refine htrivial.imp_of_mem fun {a b} hat _ _ hst => ?_
      rw [hstored a hat] at hst
      cases hst
    · -- What is stored stands in the cache, so nothing begins after it.
      cases hbb : b.isBegan with
      | false => rfl
      | true =>
        have hget' := hbegan b hb hbb
        have hmem : a ∈ t.filter (·.isStored) := List.mem_filter.2 ⟨hat, hst⟩
        rcases ha.entry with ⟨-, hnil⟩ | ⟨w, v, hv, -⟩
        · rw [hnil] at hmem
          cases hmem
        · rw [hget'] at hv
          cases hv
  · exact ha.owned_set hc hwho hkey n hn

theorem key_of_note (hn : ∃ n ∈ t, n.who = me) : c.key = k := by
  obtain ⟨n, hn, rfl⟩ := hn
  obtain ⟨b, hb, hbk⟩ := ha.owned n hn
  rw [hc] at hb
  cases hb
  exact hbk

theorem store (hr : r.Sound) {i : Nat} {l : Except String Value} {v : Value} (hk : c.key = k)
    (hs : c.stage = .keeping i l) (hl : r.cache.keep k l = (.ok v, r.cache.insert k v)) :
    Account k ⟨r.cache.insert k v, r.callers.set me { c with stage := .leaving i (.ok v) }⟩
      (t ++ [.stored me v]) := by
  have hfit := ha.fits me c hc hk
  rw [hs] at hfit
  obtain ⟨hnotes, hnone⟩ := hfit
  have hget : (r.cache.insert k v).get k = some v :=
    (insert_get r.cache k k v).trans (if_pos rfl)
  have hsame : Alike r.cache (r.cache.insert k v) := ⟨rfl, rfl⟩
  have hj : judge (r.cache.insert k v) k = judge r.cache k := hsame.judge k
  have hfind : r.cache.flights.find? k = some i :=
    hk ▸ hr.led c (List.mem_of_getElem? hc) i (by rw [hs]; rfl)
  have hall : ∀ n ∈ [Note.stored me v], n.who = me := by
    intro n hn
    rw [List.mem_singleton.1 hn]
    rfl
  have hfilter : t.filter (·.isStored) = [] := by
    rcases ha.entry with ⟨-, h⟩ | ⟨w, u, hu, -⟩
    · exact h
    · rw [hnone] at hu
      cases hu
  refine ⟨fun w b hb hbk => ?_, .inr ⟨me, v, hget, ?_⟩, ?_, fun n hn => ?_⟩
  · change b.stage.Fits ((r.cache.insert k v).get k) (judge (r.cache.insert k v) k) w _
    rw [hget, hj, notesOf_append]
    have hb : (r.callers.set me { c with stage := .leaving i (.ok v) })[w]? = some b := hb
    rw [set_caller hc] at hb
    by_cases hw : w = me
    · rw [if_pos hw] at hb
      cases hb
      rw [hw, notesOf_self hall, hnotes]
      exact .loaded (congrArg (·.1) hl) rfl
    · rw [if_neg hw] at hb
      rw [notesOf_other hall hw, List.append_nil]
      have hbfit := ha.fits w b hb hbk
      rw [hnone] at hbfit
      refine hbfit.stored (fun j hlock hled => hw ?_) v
      have hbfind := hbk ▸ hr.led b (List.mem_of_getElem? hb) j hled
      have hij : i = j := Option.some.inj (hfind.symm.trans hbfind)
      exact hr.alone hc hb (by rw [hs, hij]; rfl) hlock
  · rw [List.filter_append, hfilter]
    rfl
  · refine List.pairwise_append.2 ⟨ha.order, List.pairwise_singleton _ _, fun a _ b hb _ => ?_⟩
    rw [List.mem_singleton.1 hb]
    rfl
  · exact ha.owned_set hc (d := { c with stage := .leaving i (.ok v) })
      (fun n hn => ⟨hall n hn, hk⟩) (fun _ => hk) n hn

theorem go {s : Stage} {m : MapCache} (hat : r.Attended) (hk : c.key = k)
    (hs : c.stage.advance me k r.cache = some (s, m))
    (hkeep : ∀ i l v, c.stage = .keeping i l → r.cache.keep k l ≠ (.ok v, r.cache.insert k v)) :
    Account k ⟨m, r.callers.set me { c with stage := s }⟩ (t ++ c.notes k r.cache me) := by
  have hfit := ha.fits me c hc hk
  have hget : m.get k = r.cache.get k := advance_get hs fun i l v hst hl => (hkeep i l v hst hl).elim
  have hown (i : Nat) (hi : c.stage = .entered i) : r.cache.flights.loader? i ≠ some me := by
    obtain ⟨kc, sc⟩ := c
    cases hi
    exact hat.not_own hc
  have hnext := Stage.Fits.advance hfit hs hown
  rw [hget] at hnext
  refine ha.move hc (advance_alike hs) hget (fun n hn => ⟨notes_who hn, hk⟩) (fun n hn => ?_)
    (fun n hn hb => ?_) (fun _ => hk) fun _ => ?_
  · obtain ⟨-, ⟨i, -, rfl⟩ | ⟨i, l, v, hst, ho, rfl⟩⟩ := notes_cases hn
    · rfl
    · rcases keep_cases r.cache k l with ⟨e, hl⟩ | ⟨u, hl⟩
      · rw [hl] at ho
        cases ho
      · exact absurd hl (hkeep i l u hst)
  · obtain ⟨-, ⟨i, hst, rfl⟩ | ⟨i, l, v, -, -, rfl⟩⟩ := notes_cases hn
    · rw [hst] at hfit
      exact hfit.2
    · cases hb
  · obtain ⟨kc, sc⟩ := c
    cases hk
    exact hnext

theorem advance (hr : r.Sound) (hat : r.Attended) {s : Stage} {m : MapCache}
    (hs : c.stage.advance me c.key r.cache = some (s, m)) :
    Account k ⟨m, r.callers.set me { c with stage := s }⟩ (t ++ c.notes k r.cache me) := by
  by_cases hk : c.key = k
  · rw [hk] at hs
    by_cases hkeep : ∃ i l v, c.stage = .keeping i l ∧
        r.cache.keep k l = (.ok v, r.cache.insert k v)
    · obtain ⟨i, l, v, hst, hl⟩ := hkeep
      have hnotes : c.notes k r.cache me = [.stored me v] := by
        unfold Caller.notes
        rw [if_pos hk, hst]
        simp only [hl]
      rw [hst, advance_keeping, hl] at hs
      cases hs
      rw [hnotes]
      exact ha.store hc hr hk hst hl
    · exact ha.go hc hat hk hs fun i l v hst hl => hkeep ⟨i, l, v, hst, hl⟩
  · have hnil : c.notes k r.cache me = [] := by
      unfold Caller.notes
      rw [if_neg hk]
    have hget := advance_get hs fun _ _ _ _ _ h => hk h.symm
    have hkey (hn : ∃ n ∈ t, n.who = me) : c.key = k := ha.key_of_note hc hn
    rw [hnil]
    exact ha.move hc (advance_alike hs) hget (fun n hn => nomatch hn) (fun n hn => nomatch hn)
      (fun n hn => nomatch hn) hkey fun h => absurd h hk

omit hc

theorem endLoad {kc : Key} {i : Nat} (hc : r.callers[me]? = some ⟨kc, .loading i⟩)
    (l : Except String Value) :
    Account k { r with callers := r.callers.set me ⟨kc, .loaded i l⟩ }
      (t ++ if kc = k then [.ended me l] else []) := by
  by_cases hk : kc = k
  · obtain ⟨hn, hnone⟩ := ha.fits me _ hc hk
    rw [if_pos hk]
    refine ha.move hc ⟨rfl, rfl⟩ rfl (fun n hn => ?_) (fun n hn => ?_) (fun n hn hb => ?_)
      (fun _ => hk) fun _ => ⟨by rw [hn]; rfl, hnone⟩
    · rw [List.mem_singleton.1 hn]
      exact ⟨rfl, hk⟩
    · rw [List.mem_singleton.1 hn]
      rfl
    · rw [List.mem_singleton.1 hn] at hb
      cases hb
  · have hkey (hn : ∃ n ∈ t, n.who = me) : kc = k := ha.key_of_note hc hn
    rw [if_neg hk]
    exact ha.move hc ⟨rfl, rfl⟩ rfl (fun n hn => nomatch hn) (fun n hn => nomatch hn)
      (fun n hn => nomatch hn) hkey fun h => absurd h hk

include hc

theorem notes_eq_nil (hk : c.key ≠ k) : notesOf t me = [] := by
  refine List.filter_eq_nil_iff.2 fun n hn hw => hk ?_
  exact ha.key_of_note hc ⟨n, hn, of_decide_eq_true hw⟩

theorem again (hk : c.key ≠ k) (l : Key) :
    Account k { r with callers := r.callers.set me { key := l } } t := by
  have hnone := ha.notes_eq_nil hc hk
  have h : Account k { r with callers := r.callers.set me { key := l } } (t ++ []) :=
    ha.move hc ⟨rfl, rfl⟩ rfl (fun n hn => nomatch hn) (fun n hn => nomatch hn)
      (fun n hn => nomatch hn) (fun hn => absurd (ha.key_of_note hc hn) hk) fun _ => by
        rw [hnone]
        rfl
  rw [List.append_nil] at h
  exact h

omit hc

theorem join (l : Key) : Account k { r with callers := r.callers ++ [{ key := l }] } t := by
  have hold {w : Nat} {b : Caller} (hb : r.callers[w]? = some b) :
      (r.callers ++ [{ key := l }])[w]? = some b := by
    rw [List.getElem?_append_left (List.getElem?_eq_some_iff.1 hb).1, hb]
  refine ⟨fun w b hb hbk => ?_, ha.entry, ha.order, fun n hn => ?_⟩
  · by_cases hw : w < r.callers.length
    · have hb : (r.callers ++ [{ key := l }])[w]? = some b := hb
      rw [List.getElem?_append_left hw] at hb
      exact ha.fits w b hb hbk
    · have hnone : notesOf t w = [] := by
        refine List.filter_eq_nil_iff.2 fun n hn he => hw ?_
        obtain ⟨d, hd, -⟩ := ha.owned n hn
        rw [of_decide_eq_true he] at hd
        exact (List.getElem?_eq_some_iff.1 hd).1
      have hmem : b ∈ [({ key := l } : Caller)] := by
        have hb : (r.callers ++ [{ key := l }])[w]? = some b := hb
        rw [List.getElem?_append_right (Nat.le_of_not_lt hw)] at hb
        exact List.mem_of_getElem? hb
      rw [List.mem_singleton.1 hmem]
      exact hnone
  · obtain ⟨b, hb, hbk⟩ := ha.owned n hn
    exact ⟨b, hold hb, hbk⟩

theorem edit {e : Edit} (hget : (e.apply r.cache).get k = r.cache.get k) :
    Account k { r with cache := e.apply r.cache } t := by
  have hj := (edit_alike r.cache e).judge k
  refine ⟨fun w b hb hbk => ?_, ?_, ha.order, ha.owned⟩
  · change b.stage.Fits ((e.apply r.cache).get k) (judge (e.apply r.cache) k) w _
    rw [hget, hj]
    exact ha.fits w b hb hbk
  · change ((e.apply r.cache).get k = none ∧ _) ∨ ∃ w v, (e.apply r.cache).get k = some v ∧ _
    rw [hget]
    exact ha.entry

end Account

theorem Contest.account {k : Key} {r : Race} {t : List Note} (h : Contest k r t) :
    Account k r t := by
  induction h with
  | start _ hnone hstart =>
    refine ⟨fun me c hc hk => ?_, .inl ⟨hnone, rfl⟩, .nil, fun n hn => nomatch hn⟩
    rw [hstart c (List.mem_of_getElem? hc) hk]
    rfl
  | step hr hc hs ih =>
    obtain ⟨c, s, m, hc', hadv, rfl⟩ := step?_cases hs
    rw [hc] at hc'
    cases hc'
    exact ih.advance hc hr.reachable.sound hr.reachable.attended hadv
  | endLoad _ hc hs ih =>
    obtain ⟨kc, i, hc', rfl⟩ := endLoad?_cases hs
    rw [hc] at hc'
    cases hc'
    exact ih.endLoad hc _
  | again l _ hc hk ih => exact ih.again hc hk l
  | join l _ ih => exact ih.join l
  | edit e _ hget ih => exact ih.edit hget

/-- What callers of `k` agree on, given what is noted of the key. -/
structure Agreed (k : Key) (r : Race) (t : List Note) : Prop where
  stored_once : t.countP (·.isStored) ≤ 1
  began_before : t.Pairwise fun a b => a.isStored = true → b.isBegan = false
  entry : ∀ v, r.cache.get k = some v ↔ ∃ w, .stored w v ∈ t
  same : ∀ (me : Nat) (v : Value), r.callers[me]? = some ⟨k, .done (.ok v)⟩ →
    ∃ w, .stored w v ∈ t
  reported : ∀ (me : Nat) (l : Except String Value) (e : CacheError), .ended me l ∈ t →
    judge r.cache k l = .error e → (∀ v, .stored me v ∉ t) ∧
      ∀ o, r.callers[me]? = some ⟨k, .done o⟩ → o = .error e
  own : ∀ (me : Nat) (e : CacheError), r.callers[me]? = some ⟨k, .done (.error e)⟩ →
    .began me ∈ t ∧ ∃ l, .ended me l ∈ t ∧ judge r.cache k l = .error e
  absent : (∀ c ∈ r.callers, c.key = k → ∃ e, c.stage = .done (.error e)) → r.cache.get k = none

namespace Account

variable {k : Key} {r : Race} {t : List Note} (ha : Account k r t)

include ha

theorem get_iff (v : Value) : r.cache.get k = some v ↔ ∃ w, .stored w v ∈ t := by
  have hmem (w : Nat) (u : Value) : .stored w u ∈ t ↔ .stored w u ∈ t.filter (·.isStored) := by
    rw [List.mem_filter]
    exact ⟨fun h => ⟨h, rfl⟩, fun h => h.1⟩
  simp only [hmem]
  rcases ha.entry with ⟨hget, hnil⟩ | ⟨w, u, hget, hone⟩
  · rw [hget, hnil]
    simp
  · rw [hget, hone]
    constructor
    · intro h
      cases h
      exact ⟨w, List.mem_singleton.2 rfl⟩
    · rintro ⟨w', h⟩
      cases List.mem_singleton.1 h
      rfl

theorem settled {me : Nat} {o : Outcome} (hc : r.callers[me]? = some ⟨k, .done o⟩) :
    Settled (r.cache.get k) (judge r.cache k) me (notesOf t me) o := ha.fits me _ hc rfl

theorem refused {me : Nat} {l : Except String Value} {e : CacheError} (hl : .ended me l ∈ t)
    (hj : judge r.cache k l = .error e) {v : Value} : .stored me v ∉ t := by
  intro hv
  have hl : Note.ended me l ∈ notesOf t me := mem_notesOf hl
  have hv : Note.stored me v ∈ notesOf t me := mem_notesOf hv
  obtain ⟨c, hc, hk⟩ := ha.owned (.stored me v) (List.mem_filter.1 hv).1
  have hfit := ha.fits me c hc hk
  obtain ⟨kc, s⟩ := c
  -- Only a caller whose load is kept has such a note, and it has one of what it loaded.
  cases s with
  | start | missed | entered i | waiting i | locked i =>
    rw [show notesOf t me = [] from hfit] at hv
    cases hv
  | ready i | loading i | loaded i l' | keeping i l' =>
    rw [hfit.1] at hv
    simp at hv
  | leaving i o | unlocking i o | lettingGo i o | done o =>
    change Settled _ _ _ _ _ at hfit
    generalize notesOf t me = ns at hfit hl hv
    cases hfit with
    | found h => cases hv
    | loaded hok h =>
      simp only [List.mem_cons, reduceCtorEq, Note.ended.injEq, true_and, false_or, or_false,
        List.not_mem_nil] at hl
      rw [← hl, hj] at hok
      cases hok
    | failed h => simp at hv

theorem agreed : Agreed k r t where
  stored_once := by
    rw [List.countP_eq_length_filter]
    rcases ha.entry with ⟨-, hnil⟩ | ⟨w, v, -, hone⟩
    · rw [hnil]
      exact Nat.zero_le 1
    · rw [hone]
      exact Nat.le_refl 1
  began_before := ha.order
  entry := ha.get_iff
  same me v hc := by
    have hs := ha.settled hc
    generalize notesOf t me = ns at hs
    refine (ha.get_iff v).1 ?_
    cases hs with
    | found h => exact h
    | loaded _ h => exact h
  reported me l e hl hj := by
    refine ⟨fun v => ha.refused hl hj, fun o hc => ?_⟩
    have hs := ha.settled hc
    have hl : Note.ended me l ∈ notesOf t me := mem_notesOf hl
    generalize notesOf t me = ns at hs hl
    cases hs with
    | found h => cases hl
    | loaded hok h =>
      simp only [List.mem_cons, reduceCtorEq, Note.ended.injEq, true_and, false_or, or_false,
        List.not_mem_nil] at hl
      rw [← hl, hj] at hok
      cases hok
    | failed herr =>
      simp only [List.mem_cons, reduceCtorEq, Note.ended.injEq, true_and, false_or, or_false,
        List.not_mem_nil] at hl
      rw [← hl, hj] at herr
      exact herr.symm ▸ rfl
  own me e hc := by
    have hs := ha.settled hc
    have hsub {n : Note} (hn : n ∈ notesOf t me) : n ∈ t := (List.mem_filter.1 hn).1
    generalize notesOf t me = ns at hs hsub
    cases hs with
    | failed herr => exact ⟨hsub (by simp), _, hsub (by simp), herr⟩
  absent hall := by
    cases hget : r.cache.get k with
    | none => rfl
    | some v =>
      -- Whoever stored the entry has not come back with an error.
      obtain ⟨w, hw⟩ := (ha.get_iff v).1 hget
      obtain ⟨⟨kc, s⟩, hc, rfl⟩ := ha.owned _ hw
      obtain ⟨e, rfl⟩ : ∃ e, s = .done (.error e) := hall _ (List.mem_of_getElem? hc) rfl
      have hs := ha.settled hc
      have hw : Note.stored w v ∈ notesOf t w := mem_notesOf hw
      change Settled _ _ w (notesOf t w) _ at hs
      generalize notesOf t w = ns at hs hw
      cases hs with
      | failed _ => simp at hw

end Account

/-- However many callers race for an absent key, whatever their loads give and whoever comes first,
    all that get a value get the same one. Callers of a key that is equal by `Key.agrees` and no more,
    as `-0.0` is to `0.0`, are callers of another key. -/
theorem loads_agree {k : Key} {r : Race} {t : List Note} (h : Contest k r t) : Agreed k r t :=
  h.account.agreed

def Turn.notes (k : Key) (r : Race) : Turn → List Note
  | step me => (r.callers[me]?.map fun c => c.notes k r.cache me).getD []
  | endLoad me l => if r.callers[me]?.map (·.key) = some k then [.ended me l] else []

def notesOver (k : Key) (r : Race) : List Turn → List Note
  | [] => []
  | a :: as => a.notes k r ++ ((r.turn? a).map (·.notesOver k as)).getD []

theorem Contest.turns {k : Key} {r r' : Race} {t : List Note} (h : Contest k r t) {as : List Turn}
    (hs : r.turns? as = some r') : Contest k r' (t ++ r.notesOver k as) := by
  induction as generalizing r t with
  | nil =>
    cases hs
    rw [notesOver, List.append_nil]
    exact h
  | cons a as ih =>
    obtain ⟨r₁, h₁, hs⟩ := Option.bind_eq_some_iff.1 hs
    rw [notesOver, h₁, Option.map_some, Option.getD_some, ← List.append_assoc]
    refine ih ?_ hs
    cases a with
    | step me =>
      obtain ⟨c, hc, -⟩ := Option.bind_eq_some_iff.1 h₁
      have hn : Turn.notes k r (.step me) = c.notes k r.cache me := by rw [Turn.notes, hc]; rfl
      rw [hn]
      exact h.step hc h₁
    | endLoad me l =>
      obtain ⟨c, hc, -⟩ := Option.bind_eq_some_iff.1 h₁
      have hn : Turn.notes k r (.endLoad me l) = if c.key = k then [.ended me l] else [] := by
        rw [Turn.notes, hc]
        by_cases hk : c.key = k <;> simp [hk]
      rw [hn]
      exact h.endLoad hc h₁

def handover : List Turn :=
  [.step 0, .step 0, .step 0, .step 0, .step 0, .step 0, .step 1, .step 1, .step 1,
    .endLoad 0 (.error "down"), .step 0, .step 0, .step 0, .step 0, .step 1, .step 1, .step 0,
    .step 1, .endLoad 1 (.ok (.bool true)), .step 1, .step 1, .step 1, .step 1, .step 1]

theorem loads_agree_handover : ∃ (r : Race) (t : List Note), Contest (.plain .null) r t ∧
    r.callers.map (·.stage) =
      [.done (.error (.notLoaded (.plain .null) "down")), .done (.ok (.bool true))] ∧
    t = [.began 0, .ended 0 (.error "down"), .began 1, .ended 1 (.ok (.bool true)),
      .stored 1 (.bool true)] ∧
    Agreed (.plain .null) r t := by
  have hfirst : Contest (.plain .null) twoCallers [] := by
    refine .start twoCallers_reachable rfl fun c hc _ => ?_
    simp only [twoCallers, List.mem_cons, List.not_mem_nil, or_false, or_self] at hc
    rw [hc]
  have hlast : twoCallers.turns? handover = some ⟨⟨"prices", true,
      [(.plain .null, .bool true)], { fresh := 1 }⟩,
      [⟨.plain .null, .done (.error (.notLoaded (.plain .null) "down"))⟩,
        ⟨.plain .null, .done (.ok (.bool true))⟩]⟩ := rfl
  have hend := hfirst.turns hlast
  exact ⟨_, _, hend, rfl, rfl, loads_agree hend⟩

end CachedCalls.Race
