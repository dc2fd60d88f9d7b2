import CachedCalls.Cache.Step
import CachedCalls.Proofs.Cache.Load

/-!
Loads within loads by one caller. What a series of requests comes to is told from the entries and
from the keys that are being loaded further out; the flights show in no answer, none of their locks
is met while it is taken, and none of them is left.
-/

set_option autoImplicit false

namespace CachedCalls

namespace Cache

section Reference

variable (name : String) (allowNull : Bool)

def unlessRefused (v : Value) (es : Entries) (x : Reply × Entries) : Reply × Entries :=
  if v.isNull ∧ allowNull = false then (.failed (.nullRefused name), es) else x

def answered (load : Option (Option (List Answer))) (x : Reply × Entries) : Answer × Entries :=
  (.mk x.1 (some x.2.length) load, x.2)

mutual

/-- The answer to a request and the entries after it, while the keys `ks` are loaded further out. A
    load of one of these keys is refused, and nothing is asked for it. -/
def Step.reference : Step → List Key → Entries → Answer × Entries
  | .get k, _, es => answered none (.found (es.get? k), es)
  | .put k v, _, es => answered none (unlessRefused name allowNull v es (.done, es.put k v))
  | .putIfAbsent k v, _, es =>
    answered none <| unlessRefused name allowNull v es <| match es.get? k with
      | some w => (.found (some w), es)
      | none => (.found none, es.put k v)
  | .evict k, _, es => answered none (.done, es.erase k)
  | .evictIfPresent k, _, es => answered none (.truth (es.get? k).isSome, es.erase k)
  | .clear, _, _ => answered none (.done, [])
  | .invalidate, _, es => answered none (.truth (!es.isEmpty), [])
  | .contains k, _, es => answered none (.truth (es.get? k).isSome, es)
  | .describe, _, es =>
    answered none (.about name "concurrent_map" (some ⟨name, allowNull, es, {}⟩), es)
  | .compute k loaded nested, ks, es =>
    match es.get? k with
    | some v => answered (some none) (.value v, es)
    | none =>
      if k ∈ ks then answered (some none) (.failed (.recursive name k), es)
      else
        let (as, es) := Step.referenceAll nested (k :: ks) es
        answered (some (some as)) <| match loaded with
          | .error e => (.failed (.notLoaded k e), es)
          | .ok v => unlessRefused name allowNull v es (.value v, es.put k v)

def Step.referenceAll : List Step → List Key → Entries → List Answer × Entries
  | [], _, es => ([], es)
  | s :: ss, ks, es =>
    let (a, es) := Step.reference s ks es
    let (as, es) := Step.referenceAll ss ks es
    (a :: as, es)

end

end Reference

def Reply.bare : Reply → Reply
  | .about n p m => .about n p (m.map fun c => { c with flights := {} })
  | r => r

mutual

def Answer.bare : Answer → Answer
  | .mk r n none => .mk r.bare n none
  | .mk r n (some none) => .mk r.bare n (some none)
  | .mk r n (some (some as)) => .mk r.bare n (some (some (Answer.bareAll as)))

def Answer.bareAll : List Answer → List Answer
  | [] => []
  | a :: as => a.bare :: Answer.bareAll as

end

end Cache

/-- A request for the key comes to the lock of its flight while this is taken. -/
def MapCache.Blocked (c : MapCache) (k : Key) : Prop :=
  c.get k = none ∧ (c.enter k).2.flights.loader? (c.enter k).1 ≠ some soleCaller ∧
    (c.enter k).2.lock (c.enter k).1 = none

theorem MapCache.begin_of_blocked {c : MapCache} {k : Key} (h : c.Blocked k) :
    (c.begin k).1 = .answered (.error (.deadlock c.name)) := by
  obtain ⟨hget, hloader, hlock⟩ := h
  unfold begin
  rw [hget]
  simp only [if_neg hloader, hlock]
  rfl

namespace Cache

mutual

def Step.Unblocked : Step → MapCache → Prop
  | .compute k _ nested, c =>
    ¬ c.Blocked k ∧ ∀ i d, c.begin k = (.load i, d) → Step.AllUnblocked nested d
  | _, _ => True

def Step.AllUnblocked : List Step → MapCache → Prop
  | [], _ => True
  | s :: ss, c => s.Unblocked c ∧ Step.AllUnblocked ss (s.run c).2

end

end Cache

namespace Flights

def busy : Flight := ⟨true, some soleCaller, 2⟩

def above (n : Nat) (t : List (Key × Nat)) (i : Nat) (f : Flight) (fl : List (Key × Nat)) :
    Flights :=
  ⟨n, t, (i, f) :: fl.map fun e => (e.2, busy)⟩

/-- The flights while these keys are loaded, the innermost first. -/
def during (n : Nat) (fl : List (Key × Nat)) : Flights := ⟨n, fl, fl.map fun e => (e.2, busy)⟩

variable {k : Key} {i : Nat} {fl : List (Key × Nat)}

theorem find?_during_of_mem (n : Nat) (h : k ∈ fl.map (·.1)) :
    ∃ i ∈ fl.map (·.2), (during n fl).find? k = some i := by
  obtain ⟨e, he, rfl⟩ := List.mem_map.1 h
  obtain ⟨x, hx⟩ : ∃ x, fl.find? (fun x => decide (x.1 = e.1)) = some x :=
    Option.isSome_iff_exists.1 (List.find?_isSome.2 ⟨e, he, decide_eq_true rfl⟩)
  refine ⟨x.2, List.mem_map_of_mem (List.mem_of_find?_eq_some hx), ?_⟩
  rw [find?, during, hx]
  rfl

theorem find?_during_of_not_mem (n : Nat) (h : k ∉ fl.map (·.1)) :
    (during n fl).find? k = none := by
  rw [find?, Option.map_eq_none_iff, List.find?_eq_none]
  intro e he hk
  exact h (of_decide_eq_true hk ▸ List.mem_map_of_mem he)

theorem loader?_during (n : Nat) (h : i ∈ fl.map (·.2)) :
    (during n fl).loader? i = some soleCaller := by
  unfold loader? flight? during
  induction fl with
  | nil => cases h
  | cons e fl ih =>
    rw [List.map_cons, lookup_cons_if]
    by_cases hi : i = e.2
    · rw [if_pos hi]
      rfl
    · rw [if_neg hi]
      exact ih ((List.mem_cons.1 h).resolve_left hi)

def more (f : Flight) : Flight := { f with holders := f.holders + 1 }

theorem letGo_of_modify (n : Nat) (fl : List (Key × Nat)) (i : Nat) :
    ((during n fl).modify i more).letGo i = during n fl := by
  unfold letGo modify during more
  simp only [Flights.mk.injEq, true_and, List.map_map, List.filter_map]
  rw [List.filter_eq_self.2 fun e _ => ?_]
  · refine List.map_congr_left fun e _ => ?_
    by_cases h : e.2 = i <;> simp [h, busy]
  · by_cases h : e.2 = i <;> simp [h, busy]

theorem modify_above (h : ∀ e ∈ fl, e.2 ≠ i) (n : Nat) (t : List (Key × Nat)) (f : Flight)
    (g : Flight → Flight) : (above n t i f fl).modify i g = above n t i (g f) fl := by
  unfold modify above
  rw [List.map_cons, if_pos rfl, List.map_map]
  congr 2
  exact List.map_congr_left fun e he => if_neg (h e he)

theorem flight?_above (n : Nat) (t : List (Key × Nat)) (f : Flight) (fl : List (Key × Nat)) :
    (above n t i f fl).flight? i = some f := by
  rw [flight?, above, lookup_cons_if, if_pos rfl]

theorem enter_during (n : Nat) (h : k ∉ fl.map (·.1)) :
    (during n fl).enter k = (n, above (n + 1) ((k, n) :: fl) n { holders := 2 } fl) := by
  rw [enter, find?_during_of_not_mem n h]
  rfl

theorem leave_above (h : ∀ e ∈ fl, e.2 ≠ i) (hk : k ∉ fl.map (·.1)) (n : Nat) {f : Flight}
    (hf : f.holders = 2) : (above n ((k, i) :: fl) i f fl).leave k i =
      above n fl i (fewer f) fl := by
  have hfind : (above n ((k, i) :: fl) i f fl).find? k = some i := by
    rw [find?, above, List.find?_cons_of_pos (by simp)]
    rfl
  have htable : ((k, i) :: fl).filter (fun e => decide (e.1 ≠ k)) = fl := by
    rw [List.filter_cons_of_neg (by simp), List.filter_eq_self]
    intro e he
    exact decide_eq_true fun hek => hk (hek ▸ List.mem_map_of_mem he)
  have hmodify := modify_above h n ((k, i) :: fl) f fewer
  unfold leave
  rw [if_pos ⟨hfind, by rw [flight?_above, Option.map_some, hf]⟩]
  change ({ (modify _ i fewer) with table := ((k, i) :: fl).filter _ } : Flights) = _
  rw [htable, hmodify]
  rfl

theorem letGo_above (h : ∀ e ∈ fl, e.2 ≠ i) (n : Nat) {f : Flight} (hf : f.holders = 1) :
    (above n fl i f fl).letGo i = during n fl := by
  have hmodify := modify_above h n fl f fewer
  unfold letGo
  change ({ (modify _ i fewer) with live := (modify _ i fewer).live.filter _ } : Flights) = _
  rw [hmodify]
  unfold above during
  rw [List.filter_cons_of_neg (by simp [fewer, hf]), List.filter_eq_self.2]
  intro e he
  obtain ⟨x, hx, rfl⟩ := List.mem_map.1 he
  exact decide_eq_true fun hi => absurd hi (h x hx)

theorem during_tail (h : ∀ e ∈ fl, e.2 ≠ i) (hk : k ∉ fl.map (·.1)) (n : Nat) :
    ((((during n ((k, i) :: fl)).setLoader i none).leave k i).setLocked i false).letGo i =
      during n fl := by
  have hmark : (during n ((k, i) :: fl)).setLoader i none =
      above n ((k, i) :: fl) i ⟨true, none, 2⟩ fl := modify_above h n _ busy _
  have hunlock : (above n fl i ⟨true, none, 1⟩ fl).setLocked i false =
      above n fl i ⟨false, none, 1⟩ fl := modify_above h n fl _ _
  have hleave : (above n ((k, i) :: fl) i ⟨true, none, 2⟩ fl).leave k i =
      above n fl i ⟨true, none, 1⟩ fl := leave_above h hk n rfl
  rw [hmark, hleave, hunlock, letGo_above h n rfl]

end Flights

namespace MapCache

section Storing

variable (c : MapCache) (k : Key)

theorem put_eq (v : Value) : c.put k v =
    if v.isNull ∧ c.allowNull = false then .error (.nullRefused c.name)
    else .ok (c.insert k v) := by
  unfold put check storable
  split <;> rfl

theorem putIfAbsent_eq (v : Value) : c.putIfAbsent k v =
    if v.isNull ∧ c.allowNull = false then .error (.nullRefused c.name)
    else match c.get k with
      | some w => .ok (some w, c)
      | none => .ok (none, c.insert k v) := by
  unfold putIfAbsent check storable
  by_cases hv : v.isNull ∧ c.allowNull = false
  · rw [if_pos hv, if_pos hv]
    rfl
  · rw [if_neg hv, if_neg hv]
    cases c.get k <;> rfl

theorem keep_eq (loaded : Except String Value) : c.keep k loaded =
    match loaded with
    | .error e => (.error (.notLoaded k e), c)
    | .ok v =>
      if v.isNull ∧ c.allowNull = false then (.error (.nullRefused c.name), c)
      else (.ok v, c.insert k v) := by
  cases loaded with
  | error e => rfl
  | ok v =>
    rw [keep, put_eq]
    by_cases hv : v.isNull ∧ c.allowNull = false
    · simp only [if_pos hv]
    · simp only [if_neg hv]

end Storing

variable (name : String) (allowNull : Bool) {es : Entries} {k : Key} {i : Nat}
  {fl : List (Key × Nat)}

theorem begin_of_loading (n : Nat) (h : es.get? k = none) (hk : k ∈ fl.map (·.1)) :
    begin ⟨name, allowNull, es, .during n fl⟩ k =
      (.answered (.error (.recursive name k)), ⟨name, allowNull, es, .during n fl⟩) := by
  obtain ⟨i, hi, hfind⟩ := Flights.find?_during_of_mem n hk
  have henter : enter ⟨name, allowNull, es, .during n fl⟩ k =
      (i, ⟨name, allowNull, es, (Flights.during n fl).modify i Flights.more⟩) := by
    unfold enter Flights.enter
    rw [hfind]
    rfl
  have hloader : ((Flights.during n fl).modify i Flights.more).loader? i = some soleCaller :=
    (Flights.loader?_modify i Flights.more i fun _ => rfl).trans (Flights.loader?_during n hi)
  unfold begin get
  rw [h, henter]
  simp only [if_pos hloader, letGo, Flights.letGo_of_modify]

theorem begin_of_absent (n : Nat) (h : es.get? k = none) (hk : k ∉ fl.map (·.1))
    (hn : ∀ e ∈ fl, e.2 ≠ n) : begin ⟨name, allowNull, es, .during n fl⟩ k =
      (.load n, ⟨name, allowNull, es, .during (n + 1) ((k, n) :: fl)⟩) := by
  have henter : enter ⟨name, allowNull, es, .during n fl⟩ k = (n, ⟨name, allowNull, es,
      .above (n + 1) ((k, n) :: fl) n { holders := 2 } fl⟩) := by
    rw [enter, Flights.enter_during n hk]
  have hloader : (Flights.above (n + 1) ((k, n) :: fl) n { holders := 2 } fl).loader? n ≠
      some soleCaller := by
    rw [Flights.loader?, Flights.flight?_above]
    exact (Option.some_ne_none soleCaller).symm
  have hfree : (Flights.above (n + 1) ((k, n) :: fl) n { holders := 2 } fl).isLocked n =
      false := by
    rw [Flights.isLocked, Flights.flight?_above]
    rfl
  unfold begin get
  rw [h, henter]
  simp only [if_neg hloader, lock, hfree, Bool.false_eq_true, if_false, h, mark, Flights.setLocked,
    Flights.setLoader, Flights.modify_above hn]
  rfl

theorem finish_during (n : Nat) (hk : k ∉ fl.map (·.1)) (hi : ∀ e ∈ fl, e.2 ≠ i)
    (loaded : Except String Value) :
    finish ⟨name, allowNull, es, .during n ((k, i) :: fl)⟩ k i loaded =
      keep ⟨name, allowNull, es, .during n fl⟩ k loaded := by
  have hkeep (fs : Flights) := keep_with ⟨name, allowNull, es, {}⟩ fs k loaded
  have hmark := hkeep ((Flights.during n ((k, i) :: fl)).setLoader i none)
  unfold finish
  change ((keep ⟨name, allowNull, es, _⟩ k loaded).1,
    (keep ⟨name, allowNull, es, _⟩ k loaded).2.depart k i) = _
  rw [hmark, hkeep (.during n fl), ← Flights.during_tail hi hk n]
  rfl

end MapCache

namespace Cache

section Agreement

variable (name : String) (allowNull : Bool) (es : Entries) (n : Nat) (fl : List (Key × Nat))

/-- While the keys of `fl` are loaded further out, a request has the answer and leaves the entries
    of the reference, and leaves the flights of these keys only; no lock is met that is taken. -/
def Step.Agrees (s : Step) : Prop :=
  ∃ a m, n ≤ m ∧ s.run (⟨name, allowNull, es, .during n fl⟩ : MapCache) = (a, ⟨name, allowNull,
      (s.reference name allowNull (fl.map (·.1)) es).2, .during m fl⟩) ∧
    a.bare = (s.reference name allowNull (fl.map (·.1)) es).1 ∧
    s.Unblocked ⟨name, allowNull, es, .during n fl⟩

def Step.AllAgree (ss : List Step) : Prop :=
  ∃ as m, n ≤ m ∧ Step.runAll ss (⟨name, allowNull, es, .during n fl⟩ : MapCache) = (as,
      ⟨name, allowNull, (Step.referenceAll name allowNull ss (fl.map (·.1)) es).2,
        .during m fl⟩) ∧
    Answer.bareAll as = (Step.referenceAll name allowNull ss (fl.map (·.1)) es).1 ∧
    Step.AllUnblocked ss ⟨name, allowNull, es, .during n fl⟩

variable {name allowNull es n fl}

theorem Step.agrees_put (k : Key) (v : Value) : Step.Agrees name allowNull es n fl (.put k v) := by
  have hput : Backend.put (⟨name, allowNull, es, .during n fl⟩ : MapCache) k v = _ :=
    MapCache.put_eq _ k v
  rw [Agrees, run, reference, unlessRefused, hput]
  by_cases hv : v.isNull ∧ allowNull = false
  · rw [if_pos hv, if_pos hv]
    exact ⟨_, n, Nat.le_refl n, rfl, rfl, trivial⟩
  · rw [if_neg hv, if_neg hv]
    exact ⟨_, n, Nat.le_refl n, rfl, rfl, trivial⟩

theorem Step.agrees_putIfAbsent (k : Key) (v : Value) :
    Step.Agrees name allowNull es n fl (.putIfAbsent k v) := by
  have hput : Backend.putIfAbsent (⟨name, allowNull, es, .during n fl⟩ : MapCache) k v = _ :=
    MapCache.putIfAbsent_eq _ k v
  rw [Agrees, run, reference, unlessRefused, hput]
  by_cases hv : v.isNull ∧ allowNull = false
  · rw [if_pos hv, if_pos hv]
    exact ⟨_, n, Nat.le_refl n, rfl, rfl, trivial⟩
  · rw [if_neg hv, if_neg hv, MapCache.get]
    cases es.get? k <;> exact ⟨_, n, Nat.le_refl n, rfl, rfl, trivial⟩

theorem Step.unblocked_compute {c d : MapCache} {k : Key} {b : Begun} {nested : List Step}
    (loaded : Except String Value) (h : c.begin k = (b, d))
    (hb : b ≠ .answered (.error (.deadlock c.name)))
    (hnested : ∀ i, b = .load i → Step.AllUnblocked nested d) :
    Step.Unblocked (.compute k loaded nested) c := by
  refine ⟨fun hblocked => hb ?_, fun i e he => ?_⟩
  · rw [← MapCache.begin_of_blocked hblocked, h]
  · cases h.symm.trans he
    exact hnested i rfl

theorem Step.agrees_compute (k : Key) (loaded : Except String Value) {nested : List Step}
    (hfl : ∀ e ∈ fl, e.2 < n) (hnested : ∀ fl n, (∀ e ∈ fl, e.2 < n) →
      Step.AllAgree name allowNull es n fl nested) :
    Step.Agrees name allowNull es n fl (.compute k loaded nested) := by
  rw [Agrees, reference, run]
  cases hget : es.get? k with
  | some v =>
    have hbegin : Backend.begin (⟨name, allowNull, es, .during n fl⟩ : MapCache) k = _ :=
      MapCache.begin_of_get hget
    rw [hbegin]
    exact ⟨_, n, Nat.le_refl n, rfl, rfl, unblocked_compute loaded hbegin nofun nofun⟩
  | none =>
    by_cases hk : k ∈ fl.map (·.1)
    · have hbegin : Backend.begin (⟨name, allowNull, es, .during n fl⟩ : MapCache) k = _ :=
        MapCache.begin_of_loading name allowNull n hget hk
      rw [hbegin, if_pos hk]
      exact ⟨_, n, Nat.le_refl n, rfl, rfl, unblocked_compute loaded hbegin nofun nofun⟩
    · have hne : ∀ e ∈ fl, e.2 ≠ n := fun e he => Nat.ne_of_lt (hfl e he)
      have hbegin : Backend.begin (⟨name, allowNull, es, .during n fl⟩ : MapCache) k = _ :=
        MapCache.begin_of_absent name allowNull n hget hk hne
      have hbelow : ∀ e ∈ (k, n) :: fl, e.2 < n + 1 := List.forall_mem_cons.2
        ⟨Nat.lt_succ_self n, fun e he => Nat.lt_succ_of_lt (hfl e he)⟩
      obtain ⟨as, m, hm, hrun, has, hfree⟩ := hnested ((k, n) :: fl) (n + 1) hbelow
      have hfinish (es : Entries) : Backend.finish (⟨name, allowNull, es,
          .during m ((k, n) :: fl)⟩ : MapCache) k n loaded = _ :=
        (MapCache.finish_during name allowNull m hk hne loaded).trans (MapCache.keep_eq _ k loaded)
      have hblock := unblocked_compute loaded hbegin nofun fun _ _ => hfree
      rw [hbegin, if_neg hk]
      simp only [hrun, hfinish]
      cases loaded with
      | error e => exact ⟨_, m, Nat.le_of_succ_le hm, rfl, by rw [Answer.bare, has]; rfl, hblock⟩
      | ok v =>
        simp only [unlessRefused]
        by_cases hv : v.isNull ∧ allowNull = false
        · simp only [if_pos hv]
          exact ⟨_, m, Nat.le_of_succ_le hm, rfl, by rw [Answer.bare, has]; rfl, hblock⟩
        · simp only [if_neg hv]
          exact ⟨_, m, Nat.le_of_succ_le hm, rfl, by rw [Answer.bare, has]; rfl, hblock⟩

end Agreement

mutual

theorem Step.agrees (name : String) (allowNull : Bool) (s : Step) (es : Entries) (n : Nat)
    (fl : List (Key × Nat)) (hfl : ∀ e ∈ fl, e.2 < n) : s.Agrees name allowNull es n fl := by
  match s with
  | .put k v => exact agrees_put k v
  | .putIfAbsent k v => exact agrees_putIfAbsent k v
  | .compute k loaded nested =>
    exact agrees_compute k loaded hfl fun fl n => allAgree name allowNull nested es n fl
  | .get _ | .evict _ | .evictIfPresent _ | .clear | .invalidate | .contains _ | .describe =>
    exact ⟨_, n, Nat.le_refl n, rfl, rfl, trivial⟩

theorem Step.allAgree (name : String) (allowNull : Bool) (ss : List Step) (es : Entries)
    (n : Nat) (fl : List (Key × Nat)) (hfl : ∀ e ∈ fl, e.2 < n) :
    Step.AllAgree name allowNull es n fl ss := by
  match ss with
  | [] => exact ⟨[], n, Nat.le_refl n, rfl, rfl, trivial⟩
  | s :: ss =>
    obtain ⟨a, m, hm, hrun, ha, hfree⟩ := s.agrees name allowNull es n fl hfl
    obtain ⟨as, l, hl, hruns, has, hfrees⟩ := allAgree name allowNull ss
      (s.reference name allowNull (fl.map (·.1)) es).2 m fl
      fun e he => Nat.lt_of_lt_of_le (hfl e he) hm
    refine ⟨a :: as, l, Nat.le_trans hm hl, ?_, ?_, hfree, ?_⟩
    · rw [runAll, hrun]
      simp only [hruns]
      rfl
    · rw [Answer.bareAll, ha, has]
      rfl
    · rw [hrun]
      exact hfrees

end

/-- Whatever requests one caller makes of a cache without flights, and whatever its loads ask of it
    meanwhile, at any depth: the answers and the entries are those of the reference, no lock is met
    that is taken, and no flight is left. -/
theorem runAll_reference (name : String) (allowNull : Bool) (es : Entries) (n : Nat)
    (ss : List Step) :
    ∃ as m, Step.runAll ss (⟨name, allowNull, es, ⟨n, [], []⟩⟩ : MapCache) = (as,
        ⟨name, allowNull, (Step.referenceAll name allowNull ss [] es).2, ⟨m, [], []⟩⟩) ∧
      Answer.bareAll as = (Step.referenceAll name allowNull ss [] es).1 ∧
      Step.AllUnblocked ss ⟨name, allowNull, es, ⟨n, [], []⟩⟩ := by
  obtain ⟨as, m, -, hagrees⟩ := Step.allAgree name allowNull ss es n [] nofun
  exact ⟨as, m, hagrees⟩

example : Step.referenceAll "prices" true [.compute (.plain (.str "tea")) (.ok (.int 3))
    [.compute (.plain (.str "mate")) (.error "sold out")
        [.compute (.plain (.str "tea")) (.ok (.int 4)) []],
      .put (.plain (.str "tea")) (.int 5)]] [] [] =
    ([.mk (.value (.int 3)) (some 1) (some (some [
      .mk (.failed (.notLoaded (.plain (.str "mate")) "sold out")) (some 0) (some (some [
        .mk (.failed (.recursive "prices" (.plain (.str "tea")))) (some 0) (some none)])),
      .mk .done (some 1) none]))], [(.plain (.str "tea"), .int 3)]) := rfl

end Cache

end CachedCalls
