import CachedCalls.Proofs.Cache.Kept
import CachedCalls.Proofs.Cache.Seen

set_option autoImplicit false

namespace CachedCalls

namespace MapCache

structure Strict (c : MapCache) : Prop where
  refuses : c.allowNull = false
  free : ∀ e ∈ c.entries, e.2.isNull = false

section Steps

variable (c : MapCache) (k : Key)

theorem finish_failed {i : Nat} {loaded : Except String Value} {e : CacheError}
    (h : (c.finish k i loaded).1 = .error e) :
    (c.finish k i loaded).2.entries = c.entries := by
  obtain ⟨fs, hfinish⟩ := c.finish_cases k i loaded
  rw [hfinish] at h ⊢
  rw [keep_eq] at h ⊢
  cases loaded with
  | error e => rfl
  | ok v =>
    by_cases hv : v.isNull ∧ c.allowNull = false
    · simp only [if_pos hv]
    · simp only [if_neg hv] at h
      cases h

end Steps

namespace Strict

variable {c : MapCache} (h : c.Strict)

include h

theorem get {k : Key} {v : Value} (hv : c.get k = some v) : v.isNull = false := by
  obtain ⟨e, he, rfl⟩ := Option.map_eq_some_iff.1 hv
  exact h.free e (List.mem_of_find?_eq_some he)

theorem with_flights (fs : Flights) : ({ c with flights := fs } : MapCache).Strict :=
  ⟨h.refuses, h.free⟩

theorem evict (k : Key) : (c.evict k).Strict :=
  ⟨h.refuses, fun e he => h.free e (List.mem_filter.1 he).1⟩

theorem clear : c.clear.Strict := ⟨h.refuses, nofun⟩

theorem insert (k : Key) {v : Value} (hv : ¬ (v.isNull ∧ c.allowNull = false)) :
    v.isNull = false ∧ (c.insert k v).Strict := by
  have hnull : v.isNull = false := Bool.eq_false_iff.2 fun hn => hv ⟨hn, h.refuses⟩
  refine ⟨hnull, h.refuses, fun e he => ?_⟩
  obtain rfl | he := List.mem_cons.1 he
  · exact hnull
  · exact (h.evict k).free e he

theorem finish (k : Key) (i : Nat) (loaded : Except String Value) :
    (∀ v, (c.finish k i loaded).1 = .ok v → v.isNull = false) ∧
      (c.finish k i loaded).2.Strict := by
  obtain ⟨fs, hfinish⟩ := c.finish_cases k i loaded
  rw [hfinish, keep_eq]
  cases loaded with
  | error e => exact ⟨nofun, h.with_flights fs⟩
  | ok v =>
    by_cases hv : v.isNull ∧ c.allowNull = false
    · simp only [if_pos hv]
      exact ⟨nofun, h.with_flights fs⟩
    · simp only [if_neg hv]
      obtain ⟨hnull, hinsert⟩ := h.insert k hv
      exact ⟨fun w hw => by cases hw; exact hnull, hinsert.with_flights fs⟩

end Strict

end MapCache

namespace Cache

def Reply.NullFree : Reply → Prop
  | .found (some v) => v.isNull = false
  | .value v => v.isNull = false
  | .about _ _ (some m) => ∀ e ∈ m.entries, e.2.isNull = false
  | _ => True

mutual

def Answer.NullFree : Answer → Prop
  | .mk r _ (some (some as)) => r.NullFree ∧ Answer.AllNullFree as
  | .mk r _ _ => r.NullFree

def Answer.AllNullFree : List Answer → Prop
  | [] => True
  | a :: as => a.NullFree ∧ Answer.AllNullFree as

end

theorem Reply.nullFree_ofOutcome {o : Outcome} (h : ∀ v, o = .ok v → v.isNull = false) :
    (Reply.ofOutcome o).NullFree := by
  cases o with
  | ok v => exact h v rfl
  | error e => trivial

/-- A request to a strict map: the answer has no null, and the map is strict all along. -/
def Step.Safe (s : Step) (c : MapCache) : Prop :=
  (s.run c).1.NullFree ∧ ∀ d ∈ s.trail c, d.Strict

def Step.AllSafe (ss : List Step) (c : MapCache) : Prop :=
  Answer.AllNullFree (Step.runAll ss c).1 ∧ ∀ d ∈ Step.trailAll ss c, d.Strict

theorem Step.Safe.of_run {s : Step} {c d : MapCache} {r : Reply}
    (hrun : s.run c = answer r d) (htrail : s.trail c = [(s.run c).2]) (hr : r.NullFree)
    (hd : d.Strict) : s.Safe c := by
  refine ⟨hrun ▸ hr, fun x hx => ?_⟩
  rw [htrail, hrun] at hx
  exact List.mem_singleton.1 hx ▸ hd

theorem Step.Safe.left {s : Step} {c : MapCache} (h : s.Safe c) : (s.run c).2.Strict :=
  h.2 _ (List.mem_of_getLast? (s.getLast?_trail c))

theorem Step.AllSafe.left {ss : List Step} {c : MapCache} (h : Step.AllSafe ss c)
    (hc : c.Strict) : (Step.runAll ss c).2.Strict :=
  List.forall_mem_cons.2 ⟨hc, h.2⟩ _ (List.mem_of_getLast? (Step.getLast?_trailAll ss c))

section Requests

variable {c : MapCache} (h : c.Strict) (k : Key)

include h

theorem Step.safe_put (v : Value) : Step.Safe (.put k v) c := by
  by_cases hv : v.isNull ∧ c.allowNull = false
  · exact .of_run (run_put_refused c k hv) rfl trivial h
  · exact .of_run (run_put_stored c k hv) rfl trivial (h.insert k hv).2

theorem Step.safe_putIfAbsent (v : Value) : Step.Safe (.putIfAbsent k v) c := by
  by_cases hv : v.isNull ∧ c.allowNull = false
  · exact .of_run (run_putIfAbsent_refused c k hv) rfl trivial h
  · cases hget : c.get k with
    | some w => exact .of_run (run_putIfAbsent_present c k hv hget) rfl (h.get hget) h
    | none => exact .of_run (run_putIfAbsent_absent c k hv hget) rfl trivial (h.insert k hv).2

theorem Step.safe_get : Step.Safe (.get k) c := by
  refine .of_run (r := .found (c.get k)) (d := c) rfl rfl ?_ h
  cases hget : c.get k with
  | some v => exact h.get hget
  | none => trivial

theorem Step.safe_compute (loaded : Except String Value) {nested : List Step}
    (hnested : ∀ d : MapCache, d.Strict → Step.AllSafe nested d) :
    Step.Safe (.compute k loaded nested) c := by
  obtain ⟨b, fs, hbegin, hfound⟩ := MapCache.begin_cases c k
  replace hbegin : Backend.begin c k = (b, { c with flights := fs }) := hbegin
  unfold Safe
  rw [trail, run, hbegin]
  cases b with
  | answered o =>
    refine ⟨Reply.nullFree_ofOutcome fun v hv => h.get (hfound v (hv ▸ rfl)), fun x hx => ?_⟩
    exact List.mem_singleton.1 hx ▸ h.with_flights fs
  | load i =>
    have hall := hnested _ (h.with_flights fs)
    obtain ⟨hvalue, hfinish⟩ := (hall.left (h.with_flights fs)).finish k i loaded
    refine ⟨⟨Reply.nullFree_ofOutcome hvalue, hall.1⟩, fun x hx => ?_⟩
    obtain rfl | hx := List.mem_cons.1 hx
    · exact h.with_flights fs
    · obtain hx | hx := List.mem_append.1 hx
      · exact hall.2 x hx
      · exact List.mem_singleton.1 hx ▸ hfinish

end Requests

mutual

theorem Step.safe (s : Step) {c : MapCache} (h : c.Strict) : s.Safe c := by
  match s with
  | .get k => exact safe_get h k
  | .put k v => exact safe_put h k v
  | .putIfAbsent k v => exact safe_putIfAbsent h k v
  | .evict k => exact .of_run (r := .done) rfl rfl trivial (h.evict k)
  | .evictIfPresent k => exact .of_run (r := .truth _) rfl rfl trivial (h.evict k)
  | .clear => exact .of_run (r := .done) rfl rfl trivial h.clear
  | .invalidate => exact .of_run (r := .truth _) rfl rfl trivial h.clear
  | .contains k => exact .of_run (r := .truth _) rfl rfl trivial h
  | .describe => exact .of_run (r := .about _ _ (some c)) rfl rfl h.free h
  | .compute k loaded nested => exact safe_compute h k loaded fun d hd => allSafe nested hd

theorem Step.allSafe (ss : List Step) {c : MapCache} (h : c.Strict) : Step.AllSafe ss c := by
  match ss with
  | [] => exact ⟨trivial, nofun⟩
  | s :: ss =>
    have hs := s.safe h
    obtain ⟨has, htrail⟩ := allSafe ss hs.left
    refine ⟨⟨hs.1, has⟩, fun x hx => ?_⟩
    obtain hx | hx := List.mem_append.1 hx
    · exact hs.2 x hx
    · exact htrail x hx

end

theorem Step.entries_of_failed {s : Step} {c : MapCache} {e : CacheError} (hs : s.isAlone = true)
    (h : (s.run c).1.reply = .failed e) : (s.run c).2.entries = c.entries := by
  match s with
  | .put k v =>
    by_cases hv : v.isNull ∧ c.allowNull = false
    · rw [run_put_refused c k hv]
      rfl
    · rw [run_put_stored c k hv] at h
      cases h
  | .putIfAbsent k v =>
    by_cases hv : v.isNull ∧ c.allowNull = false
    · rw [run_putIfAbsent_refused c k hv]
      rfl
    · cases hget : c.get k with
      | some w =>
        rw [run_putIfAbsent_present c k hv hget] at h
        cases h
      | none =>
        rw [run_putIfAbsent_absent c k hv hget] at h
        cases h
  | .compute k loaded nested =>
    cases List.isEmpty_iff.1 hs
    obtain ⟨b, fs, hbegin, -⟩ := MapCache.begin_cases c k
    replace hbegin : Backend.begin c k = (b, { c with flights := fs }) := hbegin
    rw [run, hbegin] at h ⊢
    cases b with
    | answered o => rfl
    | load i =>
      simp only [runAll] at h ⊢
      cases hfinish : (Backend.finish { c with flights := fs } k i loaded).1 with
      | ok v =>
        change Reply.ofOutcome (Backend.finish { c with flights := fs } k i loaded).1 = _ at h
        rw [hfinish] at h
        cases h
      | error e => exact MapCache.finish_failed { c with flights := fs } k hfinish
  | .get _ | .evict _ | .evictIfPresent _ | .clear | .invalidate | .contains _ | .describe => cases h

/-- Whatever is asked of a map that was made to refuse nulls, also by its loads: it has no null at
    any time, and none is given as found or loaded. A request that fails leaves the entries of any
    map as they were, if its load does not ask anything of the map. -/
theorem nulls_kept_out (name : String) (ss : List Step) :
    (∀ c ∈ (⟨name, false, [], {}⟩ : MapCache) :: Step.trailAll ss ⟨name, false, [], {}⟩,
        ∀ e ∈ c.entries, e.2.isNull = false) ∧
      Answer.AllNullFree (Step.runAll ss (⟨name, false, [], {}⟩ : MapCache)).1 ∧
      ∀ (c : MapCache) (s : Step) (e : CacheError), s.isAlone = true →
        (s.run c).1.reply = .failed e → (s.run c).2.entries = c.entries := by
  have hnew : (⟨name, false, [], {}⟩ : MapCache).Strict := ⟨rfl, nofun⟩
  obtain ⟨hanswers, htrail⟩ := Step.allSafe ss hnew
  refine ⟨fun c hc => ?_, hanswers, fun c s e hs he => Step.entries_of_failed hs he⟩
  obtain rfl | hc := List.mem_cons.1 hc
  · exact hnew.free
  · exact (htrail c hc).free

def nullLoads : List Step :=
  [.compute (.plain (.str "tea")) (.ok .null) [.put (.plain (.str "tea")) (.int 3)],
    .compute (.plain (.str "milk")) (.error "sold out") [.putIfAbsent (.plain (.str "tea")) .null]]

theorem nulls_kept_out_tea :
    let c := (Step.runAll nullLoads (⟨"prices", false, [], {}⟩ : MapCache)).2
    let s := Step.compute (.plain (.str "milk")) (.ok .null) []
    c ∈ (⟨"prices", false, [], {}⟩ : MapCache) :: Step.trailAll nullLoads ⟨"prices", false, [], {}⟩ ∧
      (.plain (.str "tea"), .int 3) ∈ c.entries ∧ (Value.int 3).isNull = false ∧
      s.isAlone = true ∧ (s.run c).1.reply = .failed (.nullRefused "prices") ∧
      (s.run c).2.entries = c.entries := by
  intro c s
  have hc := List.mem_of_getLast? (Step.getLast?_trailAll nullLoads
    (⟨"prices", false, [], {}⟩ : MapCache))
  have htea : (.plain (.str "tea"), .int 3) ∈ c.entries := List.mem_singleton.2 rfl
  obtain ⟨hfree, -, hfailed⟩ := nulls_kept_out "prices" nullLoads
  exact ⟨hc, htea, hfree c hc _ htea, rfl, rfl, hfailed c s (.nullRefused "prices") rfl rfl⟩

end Cache

end CachedCalls
