import CachedCalls.Proofs.Cache.Load
import CachedCalls.Proofs.Execution.Meaning
import CachedCalls.Proofs.Session.Store

/-!
A call that reads through one map, step by step. `Comes` says of a step how it ends, how often it
calls the method and what it makes of the map, whatever else there is in the world. The call comes
to the same reading (`Bound.reading`) whether the map loads the value itself or is asked and filled.
-/

set_option autoImplicit false

namespace CachedCalls

variable {σ ε ε' α β : Type}

def resultOf (r : Except ε α) (s : σ) : EStateM.Result ε σ α :=
  match r with
  | .ok a => .ok a s
  | .error e => .error e s

theorem ended_resultOf (r : Except ε α) (s : σ) : ended (resultOf r s) = r := by
  cases r <;> rfl

theorem stateOf_resultOf (r : Except ε α) (s : σ) : stateOf (resultOf r s) = s := by
  cases r <;> rfl

theorem resultOf_ended (x : EStateM.Result ε σ α) : resultOf (ended x) (stateOf x) = x := by
  cases x <;> rfl

theorem withLog_resultOf (r : Except ε α) (s : σ) (t : List Deed) :
    withLog (resultOf r s) t = resultOf r (s, t) := by
  cases r <;> rfl

theorem logOf_resultOf (r : Except ε α) (s : σ) (t : List Deed) :
    logOf (resultOf r (s, t)) = t := by
  cases r <;> rfl

def Touch.isInvoke : Touch → Bool
  | invoke => true
  | get _ _ | put _ _ _ | evict _ _ | evictIfPresent _ _ | clear _ | invalidate _
  | compute _ _ => false

def invocations (t : List Deed) : Nat := t.countP (·.touch.isInvoke)

namespace World

structure Has (w : World) (c : CacheRef) (m : MapCache) : Prop where
  faults : w.faults = []
  place : w.heap[c.place]? = some (.map m)

namespace Has

variable {w : World} {c : CacheRef} {m : MapCache}

theorem cache (h : w.Has c m) : w.cache c = .map m := by
  rw [World.cache, h.place]
  rfl

theorem strike (h : w.Has c m) (what : AccessName) : w.faults.strike? c.name what = none := by
  rw [h.faults]
  rfl

theorem of_eq {w' : World} (h : w.Has c m) (hh : w'.heap = w.heap) (hf : w'.faults = w.faults) :
    w'.Has c m :=
  ⟨hf.trans h.faults, (congrArg (·[c.place]?) hh).trans h.place⟩

theorem still {w' : World} (h : w.Has c m) (hs : w.Still w') : w'.Has c m := by
  obtain ⟨cs, hcs, -⟩ := hs.heap
  refine ⟨hs.faults.trans h.faults, ?_⟩
  rw [hcs, List.getElem?_append_left (List.getElem?_eq_some_iff.1 h.place).1]
  exact h.place

theorem set (h : w.Has c m) (m' : MapCache) : (w.setCache c (.map m')).Has c m' :=
  ⟨h.faults, List.getElem?_set_self (List.getElem?_eq_some_iff.1 h.place).1⟩

theorem note (h : w.Has c m) (what : AccessName) (n : String) (k : Option Key) (e : Effect) :
    (w.note what n k e).Has c m := by
  obtain ⟨hh, hf⟩ := note_rest w what n k e
  exact h.of_eq hh hf

theorem store_eq (h : w.Has c m) : w.store c.place = m.get := by
  funext k
  rw [World.store, h.place]
  rfl

end Has

theorem store_of_heap {w w' : World} (h : w'.heap = w.heap) : w'.store = w.store := by
  funext p k
  rw [World.store, World.store, h]

theorem store_setCache (w : World) (c : CacheRef) (x : Cache) {p : Nat} (hp : p ≠ c.place) :
    (w.setCache c x).store p = w.store p := by
  funext k
  unfold store setCache
  rw [List.getElem?_set_ne fun h => hp h.symm]

theorem store_note (w : World) (what : AccessName) (n : String) (k : Option Key) (e : Effect) :
    (w.note what n k e).store = w.store := store_of_heap (note_rest w what n k e).1

end World

/-- Wherever the map `m` is in the place of `c`, the computation `x` ends with `r`, calls the method
    `n` times, and leaves `m'` in that place and all entries in others as they were. -/
def Comes (c : CacheRef) (m : MapCache) (x : EStateM ε (Logged World) α) (r : Except ε α) (n : Nat)
    (m' : MapCache) : Prop :=
  ∀ (w : World) (t : List Deed), w.Has c m → ∃ w' u, x (w, t) = resultOf r (w', t ++ u) ∧
    w'.Has c m' ∧ (∀ p, p ≠ c.place → w'.store p = w.store p) ∧ invocations u = n

namespace Comes

variable {c : CacheRef} {m m₁ m₂ : MapCache}

theorem pure (a : α) : Comes c m (Pure.pure a : EStateM ε (Logged World) α) (.ok a) 0 m := by
  intro w t hw
  refine ⟨w, [], ?_, hw, fun _ _ => rfl, rfl⟩
  rw [List.append_nil]
  rfl

theorem bind {x : EStateM ε (Logged World) α} {f : α → EStateM ε (Logged World) β} {a : α}
    {r : Except ε β} {i j : Nat} (hx : Comes c m x (.ok a) i m₁) (hf : Comes c m₁ (f a) r j m₂) :
    Comes c m (x >>= f) r (i + j) m₂ := by
  intro w t hw
  obtain ⟨w₁, u, hxu, hw₁, hs₁, hi⟩ := hx w t hw
  obtain ⟨w₂, v, hfv, hw₂, hs₂, hj⟩ := hf w₁ (t ++ u) hw₁
  refine ⟨w₂, u ++ v, ?_, hw₂, fun p hp => (hs₂ p hp).trans (hs₁ p hp), ?_⟩
  · have hrun : (x >>= f) (w, t) = f a (w₁, t ++ u) := by
      change EStateM.bind x f (w, t) = _
      simp only [EStateM.bind, hxu, resultOf]
    rw [hrun, hfv, List.append_assoc]
  · rw [← hi, ← hj]
    exact List.countP_append

theorem next {x : EStateM ε (Logged World) α} {f : α → EStateM ε (Logged World) β} {a : α}
    {r : Except ε β} {n : Nat} (hx : Comes c m x (.ok a) 0 m₁) (hf : Comes c m₁ (f a) r n m₂) :
    Comes c m (x >>= f) r n m₂ := by
  have h := bind hx hf
  rw [Nat.zero_add] at h
  exact h

theorem last {x : EStateM ε (Logged World) α} {f : α → EStateM ε (Logged World) β} {a : α}
    {r : Except ε β} {n : Nat} (hx : Comes c m x (.ok a) n m₁) (hf : Comes c m₁ (f a) r 0 m₂) :
    Comes c m (x >>= f) r n m₂ :=
  bind hx hf

theorem bind_error {x : EStateM ε (Logged World) α} {f : α → EStateM ε (Logged World) β} {e : ε}
    {i : Nat} (hx : Comes c m x (.error e) i m₁) : Comes c m (x >>= f) (.error e) i m₁ := by
  intro w t hw
  obtain ⟨w₁, u, hx, hw₁, hs₁, hn⟩ := hx w t hw
  refine ⟨w₁, u, ?_, hw₁, hs₁, hn⟩
  change EStateM.bind x f (w, t) = _
  simp only [EStateM.bind, hx, resultOf]

theorem adapt {x : EStateM ε (Logged World) α} {r : Except ε α} {n : Nat} (hx : Comes c m x r n m₁)
    (f : ε → ε') : Comes c m (x.adaptExcept f) (r.mapError f) n m₁ := by
  intro w t hw
  obtain ⟨w₁, u, hx, hw₁, hs₁, hn⟩ := hx w t hw
  refine ⟨w₁, u, ?_, hw₁, hs₁, hn⟩
  unfold EStateM.adaptExcept
  rw [hx]
  cases r <;> rfl

theorem of_silent {x : EStateM ε (Logged World) α} {y : EStateM ε World α} {r : Except ε α}
    (hx : Silent x y) (hy : Keeps World.Still y) (hr : ∀ w, ended (y w) = r) : Comes c m x r 0 m := by
  intro w t hw
  obtain ⟨u, hu, rfl⟩ := hx w t
  have hstill := hy w
  refine ⟨stateOf (y w), [], ?_, hw.still hstill, fun p _ => congrFun hstill.store p, rfl⟩
  rw [hu, ← withLog_resultOf, ← hr w, resultOf_ended]

theorem access {what : AccessName} {k : Option Key} {shown : α → Effect}
    {f : Cache → Except CacheError (α × Cache)} {a : α} (hf : f (.map m) = .ok (a, .map m₁))
    {d : Except CacheError α → Deed} (hd : ∀ r, (d r).touch.isInvoke = false) :
    Comes c m (recorded d (World.access what c k shown f)) (.ok a) 0 m₁ := by
  intro w t hw
  have hrun : World.access what c k shown f w =
      .ok a ((w.setCache c (.map m₁)).note what c.name k (shown a)) := by
    unfold World.access
    simp only [hw.strike what, hw.cache, hf]
  refine ⟨(w.setCache c (.map m₁)).note what c.name k (shown a), [d (.ok a)], ?_,
    (hw.set m₁).note what c.name k _, fun p hp => ?_, ?_⟩
  · unfold recorded
    rw [hrun]
    rfl
  · rw [World.store_note]
    exact World.store_setCache w c (.map m₁) hp
  · simp [invocations, hd]

theorem access_error {what : AccessName} {k : Option Key} {shown : α → Effect}
    {f : Cache → Except CacheError (α × Cache)} {e : CacheError} (hf : f (.map m) = .error e)
    {d : Except CacheError α → Deed} (hd : ∀ r, (d r).touch.isInvoke = false) :
    Comes c m (recorded d (World.access what c k shown f)) (.error e) 0 m := by
  intro w t hw
  have hrun : World.access what c k shown f w =
      .error e (w.note what c.name k (.failed e)) := by
    unfold World.access
    simp only [hw.strike what, hw.cache, hf]
  refine ⟨w.note what c.name k (.failed e), [d (.error e)], ?_, hw.note what c.name k _,
    fun p _ => congrFun (World.store_note w what c.name k _) p, ?_⟩
  · unfold recorded
    rw [hrun]
    rfl
  · simp [invocations, hd]

theorem get (k : Key) : Comes c m (World.services.logged.get c k) (.ok (m.get k)) 0 m := by
  change Comes c m (recorded (fun r => ⟨.get c k, .ofFound r⟩) (World.access .get c (some k) .found
    fun x => .ok (Backend.get x k, x))) _ _ _
  exact access rfl fun _ => rfl

theorem put (k : Key) (v : Value) : Comes c m (World.services.logged.put c k v)
    ((m.keep k (.ok v)).1.map fun _ => ()) 0 (m.keep k (.ok v)).2 := by
  have hput : (Backend.put (Cache.map m : Cache) k v).map (fun x => ((), x)) =
      ((m.put k v).map Cache.map).map fun x => ((), x) := rfl
  change Comes c m (recorded (fun r => ⟨.put c k v, .ofDone r⟩) (World.access .put c (some k)
    (fun _ => .stored v) fun x => (Backend.put x k v).map fun x => ((), x))) _ _ _
  cases h : m.put k v with
  | ok m' =>
    have hk : m.keep k (.ok v) = (.ok v, m') := by simp only [MapCache.keep, h]
    rw [h] at hput
    rw [hk]
    exact access hput fun _ => rfl
  | error e =>
    have hk : m.keep k (.ok v) = (.error e, m) := by simp only [MapCache.keep, h]
    rw [h] at hput
    rw [hk]
    exact access_error hput fun _ => rfl

theorem guard {acc : Access} {a : α} {x : EStateM CacheError (Logged World) α}
    {r : Except CacheError α} {n : Nat} (hx : Comes c m x r n m₁) :
    Comes c m ((ErrorHandler.logged .rethrow).guard acc a x) (r.mapError .cache) n m₁ := by
  intro w t hw
  obtain ⟨w₁, u, hx, hw₁, hs₁, hn⟩ := hx w t hw
  refine ⟨w₁, u, ?_, hw₁, hs₁, hn⟩
  unfold ErrorHandler.guard
  rw [hx]
  cases r <;> rfl

section Method

variable {call : Call World} (hcall : Keeps World.Still call.invoke) {out : Except String Value}
  (hout : ∀ w, ended (call.invoke w) = out)

include hcall hout

theorem invoke : Comes c m call.logged.invoke out 1 m := by
  intro w t hw
  have hstill := hcall w
  refine ⟨stateOf (call.invoke w), [⟨.invoke, .ofMethod out⟩], ?_, hw.still hstill,
    fun p _ => congrFun hstill.store p, rfl⟩
  change withLog (call.invoke w) (t ++ [⟨.invoke, .ofMethod (ended (call.invoke w))⟩]) = _
  rw [← withLog_resultOf, ← hout w, resultOf_ended]

theorem invoked : Comes c m call.logged.invoked (out.mapError .invocation) 1 m :=
  (invoke hcall hout).adapt _

omit hcall hout

theorem begin_has {w : World} (hw : w.Has c m) (k : Key) {b : Begun} {m' : MapCache}
    (hb : m.begin k = (b, m')) : ∃ w', World.begin c k w = (b, w') ∧ w'.Has c m' ∧
      ∀ p, p ≠ c.place → w'.store p = w.store p := by
  obtain ⟨told, htold⟩ : ∃ told : World, told =
      if w.quiet then w else (w.tell (.computing c.name k)).name c.name k := ⟨_, rfl⟩
  have hsame : told.heap = w.heap ∧ told.faults = w.faults := by
    rw [htold]
    unfold World.name
    split
    · exact ⟨rfl, rfl⟩
    · split <;> exact ⟨rfl, rfl⟩
  have hhas : told.Has c m := hw.of_eq hsame.1 hsame.2
  have hbackend : Backend.begin (told.cache c) k = (b, .map m') := by
    rw [hhas.cache]
    change (m.begin k).map id Cache.map = _
    rw [hb]
    rfl
  have hstore (p : Nat) (hp : p ≠ c.place) : (told.setCache c (.map m')).store p = w.store p := by
    rw [World.store_setCache told c (.map m') hp, World.store_of_heap hsame.1]
  have hstrike := hhas.strike .compute
  unfold World.begin
  rw [← htold]
  simp only [hstrike, hbackend]
  cases b with
  | answered o =>
    refine ⟨_, rfl, (hhas.set m').note .compute c.name (some k) (.ofOutcome o), fun p hp => ?_⟩
    rw [World.store_note, hstore p hp]
  | load i => exact ⟨_, rfl, hhas.set m', hstore⟩

theorem finish_comes {k : Key} {i : Nat} {l : Except String Value} {o : Outcome}
    (hf : m.finish k i l = (o, m₁)) :
    Comes c m (World.services.logged.finish c k i l) o 0 m₁ := by
  intro w t hw
  have hbackend : Backend.finish (w.cache c) k i l = (o, .map m₁) := by
    rw [hw.cache]
    change (m.finish k i l).map id Cache.map = _
    rw [hf]
    rfl
  have hrun : World.finish c k i l w =
      resultOf o ((w.setCache c (.map m₁)).note .compute c.name (some k) (.ofOutcome o)) := by
    unfold World.finish
    rw [hbackend]
    cases o <;> rfl
  refine ⟨_, [⟨.compute c k, .ofOutcome o⟩], ?_,
    (hw.set m₁).note .compute c.name (some k) (.ofOutcome o), fun p hp => ?_, rfl⟩
  · change withLog (World.finish c k i l w)
      (t ++ [⟨.compute c k, .ofOutcome (ended (World.finish c k i l w))⟩]) = _
    rw [hrun, ended_resultOf, withLog_resultOf]
  · rw [World.store_note]
    exact World.store_setCache w c (.map m₁) hp

theorem compute_hit {k : Key} {v : Value} (hget : m.get k = some v)
    (load : EStateM String (Logged World) Value) :
    Comes c m (World.services.logged.compute c k load) (.ok v) 0 m := by
  intro w t hw
  obtain ⟨w', hb, hw', hs⟩ := begin_has hw k (MapCache.begin_of_get hget)
  refine ⟨w', [⟨.compute c k, .ofOutcome (.ok v)⟩], ?_, hw', hs, rfl⟩
  have hbegin : World.services.logged.begin c k (w, t) = (.answered (.ok v), w',
      t ++ [⟨.compute c k, .ofOutcome (.ok v)⟩]) := by
    simp only [Services.logged, World.services, hb]
  unfold Services.compute
  rw [hbegin]
  rfl

include hcall hout in
theorem compute_miss {k : Key} (hget : m.get k = none) (hq : m.flights.Quiet) :
    ∃ fs, Comes c m (World.services.logged.compute c k call.logged.invoke) (m.keep k out).1 1
      { (m.keep k out).2 with flights := fs } := by
  obtain ⟨i, fs, hb⟩ := MapCache.begin_of_miss hget hq
  obtain ⟨fs', hf⟩ := MapCache.finish_with m fs k i out
  refine ⟨fs', fun w t hw => ?_⟩
  -- The map is looked at, the method called, and the load handed to the map.
  obtain ⟨w₁, hbegin, hw₁, hs₁⟩ := begin_has hw k hb
  obtain ⟨w₂, u, hinvoke, hw₂, hs₂, hn⟩ := invoke hcall hout w₁ t hw₁
  obtain ⟨w₃, v, hfinish, hw₃, hs₃, hn'⟩ := finish_comes hf w₂ (t ++ u) hw₂
  refine ⟨w₃, u ++ v, ?_, hw₃, fun p hp => (hs₃ p hp).trans ((hs₂ p hp).trans (hs₁ p hp)), ?_⟩
  · have hlogged : World.services.logged.begin c k (w, t) = (.load i, w₁, t) := by
      simp only [Services.logged, World.services, hbegin]
    unfold Services.compute
    rw [hlogged]
    simp only [hinvoke]
    rw [← List.append_assoc, ← hfinish]
    cases out <;> rfl
  · have hsum : invocations (u ++ v) = invocations u + invocations v := List.countP_append
    rw [hsum, hn, hn']

end Method

theorem passes (b : Bound) (r : ResultState) : Comes c m (b.passes World.services.logged r)
    ((b.judge r).mapError .expression) 0 m :=
  of_silent (passes_silent World.services b r) (World.services_still.passes b r) fun w =>
    World.services_evaluates.ended_passes b r w

theorem key (b : Bound) (r : ResultState) :
    Comes c m (b.key World.services.logged r) (b.finalKey r) 0 m :=
  of_silent (key_silent World.services b r) (World.services_still.drawn b r) fun w =>
    World.services_evaluates.ended_key b r w

end Comes

/-- What a read through one map comes to: its outcome, how often it calls the method, and the
    entries that it leaves in the map. -/
structure Reading where
  outcome : Except CallError Value
  calls : Nat
  entries : Entries

def Bound.reading (b : Bound) (m : MapCache) (out : Except String Value) : Reading :=
  match b.judge .unset with
  | .error e => ⟨.error (.expression e), 0, m.entries⟩
  | .ok false => ⟨out.mapError .invocation, 1, m.entries⟩
  | .ok true =>
    match b.finalKey .unset with
    | .error e => ⟨.error e, 0, m.entries⟩
    | .ok k =>
      match m.get k with
      | some v => ⟨.ok v, 0, m.entries⟩
      | none => ⟨(m.keep k out).1.mapError Call.loadError, 1, (m.keep k out).2.entries⟩

namespace Bound

variable {b : Bound} {m : MapCache}

theorem reading_failed {e : ExprError} (hj : b.judge .unset = .error e)
    (out : Except String Value) :
    b.reading m out = ⟨.error (.expression e), 0, m.entries⟩ := by
  simp only [reading, hj]

theorem reading_passed_over (hj : b.judge .unset = .ok false) (out : Except String Value) :
    b.reading m out = ⟨out.mapError .invocation, 1, m.entries⟩ := by
  simp only [reading, hj]

theorem reading_keyless {e : CallError} (hj : b.judge .unset = .ok true)
    (hk : b.finalKey .unset = .error e) (out : Except String Value) :
    b.reading m out = ⟨.error e, 0, m.entries⟩ := by
  simp only [reading, hj, hk]

variable {k : Key} (hj : b.judge .unset = .ok true) (hk : b.finalKey .unset = .ok k)

include hj hk

theorem reading_hit {v : Value} (hget : m.get k = some v) (out : Except String Value) :
    b.reading m out = ⟨.ok v, 0, m.entries⟩ := by
  simp only [reading, hj, hk, hget]

theorem reading_miss (hget : m.get k = none) (out : Except String Value) : b.reading m out =
    ⟨(m.keep k out).1.mapError Call.loadError, 1, (m.keep k out).2.entries⟩ := by
  simp only [reading, hj, hk, hget]

end Bound

def Reads (c : CacheRef) (m : MapCache) (x : Act (Logged World) Value) (g : Reading) : Prop :=
  ∃ m', Comes c m x g.outcome g.calls m' ∧ m'.entries = g.entries

section Search

variable {c : CacheRef} {m : MapCache} {b : Bound}

theorem firstHit_comes (k : Key) : Comes c m
    (Call.firstHit World.services.logged (ErrorHandler.logged .rethrow) k [c]) (.ok (m.get k)) 0
    m := by
  have hget : Comes c m ((ErrorHandler.logged .rethrow).guard (.get c k) none
      (World.services.logged.get c k)) (.ok (m.get k)) 0 m := (Comes.get k).guard
  cases h : m.get k with
  | some v =>
    rw [h] at hget
    exact Comes.next hget (Comes.pure (some v))
  | none =>
    rw [h] at hget
    exact Comes.next hget (Comes.pure none)

def Bound.searched (b : Bound) (m : MapCache) : Except CallError Search :=
  match b.judge .unset with
  | .error e => .error (.expression e)
  | .ok false => .ok (.missed [])
  | .ok true => (b.finalKey .unset).map fun k =>
    match m.get k with
    | some v => .hit v
    | none => .missed [⟨b, k⟩]

theorem search_comes (hc : b.caches = [c]) : Comes c m
    (Call.search World.services.logged (ErrorHandler.logged .rethrow) [b]) (b.searched m) 0 m := by
  have hpass : Comes c m (b.passes World.services.logged .unset) _ 0 m := Comes.passes b .unset
  have hkey : Comes c m (b.key World.services.logged .unset) _ 0 m := Comes.key b .unset
  unfold Bound.searched Call.search
  rw [hc]
  cases hj : b.judge .unset with
  | error e =>
    rw [hj] at hpass
    exact Comes.bind_error hpass
  | ok p =>
    rw [hj] at hpass
    cases p with
    | false => exact Comes.next hpass (Comes.pure (Search.missed []))
    | true =>
      refine Comes.next hpass ?_
      cases hk : b.finalKey .unset with
      | error e =>
        rw [hk] at hkey
        exact Comes.bind_error hkey
      | ok k =>
        rw [hk] at hkey
        have hfirst : Comes c m _ (.ok (m.get k)) 0 m := firstHit_comes k
        refine Comes.next hkey ?_
        cases hget : m.get k with
        | some v =>
          rw [hget] at hfirst
          exact Comes.next hfirst (by simpa [Except.map, hget] using Comes.pure (Search.hit v))
        | none =>
          rw [hget] at hfirst
          refine Comes.next hfirst (Comes.next (Comes.pure (Search.missed [])) ?_)
          simpa [Except.map, hget] using Comes.pure (Search.missed [⟨b, k⟩])

end Search

theorem store_comes {c : CacheRef} {m : MapCache} {b : Bound} (hc : b.caches = [c])
    (hveto : b.operation.kind.veto = none) (k : Key) (v : Value) :
    Comes c m (Call.store World.services.logged (ErrorHandler.logged .rethrow) v ⟨b, k⟩)
      (((m.keep k (.ok v)).1.map fun _ => ()).mapError .cache) 0 (m.keep k (.ok v)).2 := by
  have hallow : b.allows World.services.logged (.available v) = pure true := by
    unfold Bound.allows
    rw [hveto]
  have hput : Comes c m (Call.putOne World.services.logged (ErrorHandler.logged .rethrow) k v c)
      _ 0 _ := (Comes.put k v).guard
  unfold Call.store
  rw [hallow, hc]
  refine Comes.next (Comes.pure true) ?_
  cases h : ((m.keep k (.ok v)).1.map fun _ => ()).mapError CallError.cache with
  | error e =>
    rw [h] at hput
    exact Comes.bind_error hput
  | ok u =>
    rw [h] at hput
    exact Comes.next hput (Comes.pure ())

theorem loadError_of_put {m : MapCache} {k : Key} {v : Value} {e : CacheError}
    (h : m.put k v = .error e) : Call.loadError e = .cache e := by
  unfold MapCache.put MapCache.check MapCache.storable at h
  split at h <;> cases h
  rfl

section Paths

variable {c : CacheRef} {m : MapCache} {call : Call World}
  (hcall : Keeps World.Still call.invoke) {out : Except String Value}
  (hout : ∀ w, ended (call.invoke w) = out) {b : Bound}

include hcall hout

theorem runSingle_reads (hq : m.flights.Quiet) :
    Reads c m (Call.runSingle World.services.logged call.logged b c) (b.reading m out) := by
  have hpass : Comes c m (b.passes World.services.logged .unset) _ 0 m := Comes.passes b .unset
  have hkey : Comes c m (b.key World.services.logged .unset) _ 0 m := Comes.key b .unset
  cases hj : b.judge .unset with
  | error e =>
    rw [hj] at hpass
    rw [Bound.reading_failed hj]
    exact ⟨m, Comes.bind_error hpass, rfl⟩
  | ok p =>
    rw [hj] at hpass
    cases p with
    | false =>
      rw [Bound.reading_passed_over hj]
      exact ⟨m, Comes.next hpass (Comes.invoked hcall hout), rfl⟩
    | true =>
      cases hk : b.finalKey .unset with
      | error e =>
        rw [hk] at hkey
        rw [Bound.reading_keyless hj hk]
        exact ⟨m, Comes.next hpass (Comes.bind_error hkey), rfl⟩
      | ok k =>
        rw [hk] at hkey
        cases hget : m.get k with
        | some v =>
          have hload : Comes c m _ (.ok v) 0 m := Comes.compute_hit hget call.logged.invoke
          rw [Bound.reading_hit hj hk hget]
          exact ⟨m, Comes.next hpass (Comes.next hkey (hload.adapt Call.loadError)), rfl⟩
        | none =>
          obtain ⟨fs, hload⟩ := Comes.compute_miss (c := c) hcall hout hget hq
          rw [Bound.reading_miss hj hk hget]
          exact ⟨_, Comes.next hpass (Comes.next hkey (hload.adapt Call.loadError)), rfl⟩

omit hcall hout in
theorem gather_hit {v : Value} (hsearch : Comes c m
    (Call.search World.services.logged (ErrorHandler.logged .rethrow) [b]) (.ok (.hit v)) 0 m) :
    Comes c m (Call.gather World.services.logged (ErrorHandler.logged .rethrow) call.logged
      [b] [] []) (.ok (v, [])) 0 m := by
  refine Comes.next (Comes.pure ()) (Comes.next hsearch ?_)
  -- No put asks for a key, neither ahead of the value nor after it.
  refine Comes.next (Comes.pure []) (Comes.next (Comes.pure v) ?_)
  exact Comes.next (Comes.pure []) (Comes.pure (v, []))

theorem gather_missed {rs : List Request} (hsearch : Comes c m
    (Call.search World.services.logged (ErrorHandler.logged .rethrow) [b]) (.ok (.missed rs)) 0 m) :
    Comes c m (Call.gather World.services.logged (ErrorHandler.logged .rethrow) call.logged
      [b] [] []) ((out.mapError .invocation).map (·, rs)) 1 m := by
  have hinvoke : Comes c m call.logged.invoked _ 1 m := Comes.invoked hcall hout
  refine Comes.next (Comes.pure ()) (Comes.next hsearch ?_)
  cases out with
  | error e => exact Comes.bind_error hinvoke
  | ok v =>
    refine Comes.last hinvoke (Comes.next (Comes.pure []) ?_)
    rw [List.append_nil]
    exact Comes.pure (v, rs)

omit hcall hout in
theorem commit_nothing (v : Value) : Comes c m
    (Call.commit World.services.logged (ErrorHandler.logged .rethrow) [] v []) (.ok v) 0 m :=
  Comes.next (Comes.pure ()) (Comes.next (Comes.pure ()) (Comes.pure v))

omit hcall hout in
theorem commit_one (hc : b.caches = [c]) (hveto : b.operation.kind.veto = none) (k : Key)
    (v : Value) : Comes c m
      (Call.commit World.services.logged (ErrorHandler.logged .rethrow) [] v [⟨b, k⟩])
      ((m.keep k (.ok v)).1.mapError Call.loadError) 0 (m.keep k (.ok v)).2 := by
  have hstore : Comes c m _ _ 0 _ := store_comes hc hveto k v
  cases hput : m.put k v with
  | error e =>
    have hkeep : m.keep k (.ok v) = (.error e, m) := by simp only [MapCache.keep, hput]
    rw [hkeep] at hstore ⊢
    -- A refused load is reported in the words of a refused put.
    have hfail : (Except.error e : Except CacheError Value).mapError Call.loadError =
        .error (.cache e) := congrArg Except.error (loadError_of_put hput)
    rw [hfail]
    exact Comes.bind_error (Comes.bind_error hstore)
  | ok m' =>
    have hkeep : m.keep k (.ok v) = (.ok v, m') := by simp only [MapCache.keep, hput]
    rw [hkeep] at hstore ⊢
    exact Comes.next (Comes.next hstore (Comes.pure ()))
      (Comes.next (Comes.pure ()) (Comes.pure v))

theorem runPhased_reads (hc : b.caches = [c]) (hveto : b.operation.kind.veto = none) :
    Reads c m (Call.runPhased World.services.logged (ErrorHandler.logged .rethrow) call.logged
      [b] [] []) (b.reading m out) := by
  have hsearch : Comes c m (Call.search World.services.logged (ErrorHandler.logged .rethrow) [b])
    (b.searched m) 0 m := search_comes hc
  have hfailed {e : CallError} (hs : b.searched m = .error e) : Reads c m
      (Call.runPhased World.services.logged (ErrorHandler.logged .rethrow) call.logged [b] [] [])
      ⟨.error e, 0, m.entries⟩ := by
    rw [hs] at hsearch
    exact ⟨m, Comes.bind_error (Comes.next (Comes.pure ()) (Comes.bind_error hsearch)), rfl⟩
  cases hj : b.judge .unset with
  | error e =>
    rw [Bound.reading_failed hj]
    exact hfailed (by simp only [Bound.searched, hj])
  | ok p =>
    cases p with
    | false =>
      have hs : b.searched m = .ok (.missed []) := by simp only [Bound.searched, hj]
      rw [hs] at hsearch
      have hgather := gather_missed hcall hout hsearch
      rw [Bound.reading_passed_over hj]
      cases out with
      | error e => exact ⟨m, Comes.bind_error hgather, rfl⟩
      | ok v => exact ⟨m, Comes.last hgather (commit_nothing v), rfl⟩
    | true =>
      cases hk : b.finalKey .unset with
      | error e =>
        rw [Bound.reading_keyless hj hk]
        exact hfailed (by simp only [Bound.searched, hj, hk, Except.map])
      | ok k =>
        cases hget : m.get k with
        | some v =>
          have hs : b.searched m = .ok (.hit v) := by
            simp only [Bound.searched, hj, hk, hget, Except.map]
          rw [hs] at hsearch
          rw [Bound.reading_hit hj hk hget]
          exact ⟨m, Comes.next (gather_hit hsearch) (commit_nothing v), rfl⟩
        | none =>
          have hs : b.searched m = .ok (.missed [⟨b, k⟩]) := by
            simp only [Bound.searched, hj, hk, hget, Except.map]
          rw [hs] at hsearch
          have hgather := gather_missed hcall hout hsearch
          rw [Bound.reading_miss hj hk hget]
          cases out with
          | error e => exact ⟨m, Comes.bind_error hgather, rfl⟩
          | ok v => exact ⟨_, Comes.last hgather (commit_one hc hveto k v), rfl⟩

end Paths

end CachedCalls
