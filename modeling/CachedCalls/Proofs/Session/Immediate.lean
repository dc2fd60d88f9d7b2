import CachedCalls.Proofs.Cache.Defaults
import CachedCalls.Proofs.Execution.Blind
import CachedCalls.Proofs.Manager.Find
import CachedCalls.Session.World

set_option autoImplicit false

namespace CachedCalls

theorem cases_of_map_eq {ε α β δ : Type} {f : α → δ} {g : β → δ} {x : Except ε α} {y : Except ε β}
    (h : x.map f = y.map g) :
    (∃ e, x = .error e ∧ y = .error e) ∨ ∃ a b, x = .ok a ∧ y = .ok b ∧ f a = g b := by
  cases x with
  | error e =>
    cases y with
    | error d =>
      cases h
      exact .inl ⟨e, rfl, rfl⟩
    | ok b => cases h
  | ok a =>
    obtain ⟨b, hb, heq⟩ := ok_of_map h.symm
    exact .inr ⟨a, b, rfl, hb, heq.symm⟩

section Unasked

variable {σ : Type} (sv : Services σ) (h : ErrorHandler σ)

/-- `sv`, with the answer `false` to each `evictIfPresent` and each `invalidate`. -/
def Services.unasked : Services σ :=
  { sv with
    evictIfPresent := fun c k => (fun _ => false) <$> sv.evictIfPresent c k
    invalidate := fun c => (fun _ => false) <$> sv.invalidate c }

theorem discard_map {ε α β : Type} (f : α → β) (x : EStateM ε σ α) :
    Functor.discard (f <$> x) = (Functor.discard x : EStateM ε σ PUnit) := by
  funext s
  simp only [Functor.discard, Functor.mapConst, Functor.map, EStateM.map, Function.comp]
  cases x s <;> rfl

theorem Services.unasked_stepwise (call : Call σ) :
    Stepwise (fun _ x y => x = y) sv h call sv.unasked h call where
  pure _ := rfl
  bind hx hf := by rw [hx, funext hf]
  nullKey _ := rfl
  test _ _ _ _ := rfl
  key _ _ _ := rfl
  verdict _ := rfl
  get _ _ := rfl
  put _ _ _ := rfl
  evict immediate k c := by
    cases immediate with
    | true => exact congrArg (h.guard (.evict c k) ()) (discard_map _ _).symm
    | false => rfl
  clear immediate c := by
    cases immediate with
    | true => exact congrArg (h.guard (.clear c) ()) (discard_map _ _).symm
    | false => rfl
  invoked := rfl

def Call.idle : Call σ where
  target := ⟨.ofClass "" none [] [], .null⟩
  method := ⟨"", "", [], .anyone, false, false⟩
  args := []
  invoke := pure .null

theorem Call.evictAll_unasked (before : Bool) (r : ResultState) (es : List Eviction) :
    Call.evictAll sv h before r es = Call.evictAll sv.unasked h before r es :=
  (sv.unasked_stepwise h .idle).evictAll before r es

end Unasked

namespace Cache

def stripped : Cache → Cache
  | map m => minimal ⟨m⟩
  | c => c

theorem stripped_stripped (c : Cache) : c.stripped.stripped = c.stripped := by
  cases c <;> rfl

section Operations

variable (c : Cache) (k : Key)

theorem get_stripped : Backend.get c.stripped k = Backend.get c k := by
  cases c <;> rfl

theorem begin_stripped :
    Backend.begin c.stripped k = (Backend.begin c k).map id stripped := by
  cases c <;> rfl

theorem finish_stripped (i : Nat) (loaded : Except String Value) :
    Backend.finish c.stripped k i loaded = (Backend.finish c k i loaded).map id stripped := by
  cases c <;> rfl

theorem put_stripped (v : Value) :
    Backend.put c.stripped k v = (Backend.put c k v).map stripped := by
  cases c with
  | map m =>
    simp only [stripped, Backend.put]
    cases m.put k v <;> rfl
  | bounded b =>
    simp only [stripped, Backend.put]
    cases b.put k v <;> rfl
  | none_ _ => rfl
  | minimal m =>
    simp only [stripped, Backend.put]
    cases m.map.put k v <;> rfl

theorem evict_stripped : Backend.evict c.stripped k = (Backend.evict c k).stripped := by
  cases c <;> rfl

theorem evictIfPresent_stripped :
    (Backend.evictIfPresent c.stripped k).2 = (Backend.evictIfPresent c k).2.stripped := by
  cases c <;> rfl

theorem clear_stripped : Backend.clear c.stripped = (Backend.clear c).stripped := by
  cases c <;> rfl

theorem invalidate_stripped :
    (Backend.invalidate c.stripped).2 = (Backend.invalidate c).2.stripped := by
  cases c <;> rfl

end Operations

end Cache

def Effect.mute : Effect → Effect
  | truth _ => truth false
  | e => e

def Event.mute : Event → Event
  | access what c k e => access what c k e.mute
  | e => e

theorem Effect.mute_mute (e : Effect) : e.mute.mute = e.mute := by
  cases e <;> rfl

namespace World

/-- `w` with `Cache.stripped` of each of its caches, and with a log that does not tell whether an
    eviction found something. -/
def stripped (w : World) : World :=
  { w with heap := w.heap.map Cache.stripped, log := w.log.map Event.mute }

def Alike (w v : World) : Prop := w.stripped = v.stripped

theorem alike_stripped (w : World) : Alike w w.stripped := by
  have hcaches : Cache.stripped ∘ Cache.stripped = Cache.stripped := funext Cache.stripped_stripped
  have hevents : Event.mute ∘ Event.mute = Event.mute := by
    funext e
    cases e with
    | access what c k e => exact congrArg (Event.access what c k) e.mute_mute
    | _ => rfl
  unfold Alike stripped
  simp only [List.map_map, hcaches, hevents]

theorem cache_stripped (w : World) (c : CacheRef) : w.stripped.cache c = (w.cache c).stripped := by
  unfold cache stripped
  rw [List.getElem?_map]
  cases w.heap[c.place]? <;> rfl

theorem setCache_stripped (w : World) (c : CacheRef) (x : Cache) :
    (w.setCache c x).stripped = w.stripped.setCache c x.stripped := by
  unfold setCache stripped
  simp only [List.map_set]

theorem name_stripped (w : World) (cache : String) (k : Key) :
    (w.name cache k).stripped = w.stripped.name cache k := by
  have hnamed : w.stripped.named = w.named := rfl
  unfold name
  rw [hnamed]
  split <;> rfl

theorem note_stripped (w : World) (what : AccessName) (cache : String) (k : Option Key)
    (e : Effect) : (w.note what cache k e).stripped = w.stripped.note what cache k e.mute := by
  have hquiet : w.stripped.quiet = w.quiet := rfl
  unfold note
  rw [hquiet]
  cases w.quiet with
  | true => rfl
  | false =>
    cases k with
    | none => rfl
    | some k => exact name_stripped _ cache k

namespace Alike

variable {w v : World} (h : Alike w v)

include h

theorem of_stripped {β : Type} (f : World → β) : f w.stripped = f v.stripped := by rw [h]

theorem faults : w.faults = v.faults := h.of_stripped World.faults

theorem quiet : w.quiet = v.quiet := h.of_stripped World.quiet

theorem compiled : w.compiled = v.compiled := h.of_stripped World.compiled

theorem managers : w.managers = v.managers := h.of_stripped World.managers

theorem caches : w.heap.map Cache.stripped = v.heap.map Cache.stripped := h.of_stripped World.heap

theorem refused : w.refused = v.refused := h.of_stripped World.refused

theorem found (ms : List (ManagerRef × Manager)) (cs : Heap) (refused : Bool) :
    Alike { w with managers := ms, heap := w.heap ++ cs, refused := refused }
      { v with managers := ms, heap := v.heap ++ cs, refused := refused } := by
  unfold Alike stripped
  simp only [List.map_append]
  exact h.of_stripped fun u : World =>
    { u with managers := ms, heap := u.heap ++ cs.map Cache.stripped, refused := refused }

theorem lend (c : Compiled) : Alike { w with compiled := c } { v with compiled := c } := by
  unfold Alike
  exact h.of_stripped fun u : World => { u with compiled := c }

theorem cache (c : CacheRef) : (w.cache c).stripped = (v.cache c).stripped := by
  rw [← cache_stripped, h, cache_stripped]

theorem setCache (c : CacheRef) {x y : Cache} (hxy : x.stripped = y.stripped) :
    Alike (w.setCache c x) (v.setCache c y) := by
  unfold Alike
  rw [setCache_stripped, setCache_stripped, h, hxy]

theorem computing (c : CacheRef) (k : Key) :
    Alike ((w.tell (.computing c.name k)).name c.name k)
      ((v.tell (.computing c.name k)).name c.name k) := by
  unfold Alike
  rw [name_stripped, name_stripped]
  exact congrArg (fun u : World => (u.tell (.computing c.name k)).name c.name k) h

theorem note (what : AccessName) (cache : String) (k : Option Key) {e d : Effect}
    (hed : e.mute = d.mute) : Alike (w.note what cache k e) (v.note what cache k d) := by
  unfold Alike
  rw [note_stripped, note_stripped, h, hed]

end Alike

section Accesses

variable {α β : Type} (what : AccessName) (c : CacheRef) (k : Option Key) (shown : α → Effect)
  (f : Cache → Except CacheError (α × Cache))

theorem access_blind (g : α → β)
    (hf : ∀ x, (f x.stripped).map (Prod.map g id) = (f x).map (Prod.map g Cache.stripped))
    (hshown : ∀ a b, g a = g b → (shown a).mute = (shown b).mute) :
    Blind Alike (g <$> access what c k shown f) := by
  intro w v h
  have hstrike : w.faults.strike? c.name what = v.faults.strike? c.name what :=
    congrArg (·.strike? c.name what) h.faults
  have hsame : (f (w.cache c)).map (Prod.map g Cache.stripped) =
      (f (v.cache c)).map (Prod.map g Cache.stripped) := by
    rw [← hf, ← hf, h.cache c]
  simp only [Functor.map, EStateM.map, access, hstrike]
  cases v.faults.strike? c.name what with
  | some e => exact .error rfl rfl (h.note what c.name k rfl)
  | none =>
    obtain ⟨e, hw, hv⟩ | ⟨⟨a, x⟩, ⟨b, y⟩, hw, hv, heq⟩ := cases_of_map_eq hsame
    · simp only [hw, hv]
      exact .error rfl rfl (h.note what c.name k rfl)
    · obtain ⟨hvalue, hcell⟩ := Prod.ext_iff.1 heq
      have hnote := (h.setCache c hcell).note what c.name k (hshown a b hvalue)
      simp only [hw, hv]
      exact .ok rfl (congrArg (EStateM.Result.ok · _) hvalue.symm) hnote

theorem access_blind_of_eq
    (hf : ∀ x, f x.stripped = (f x).map (Prod.map id Cache.stripped)) :
    Blind Alike (access what c k shown f) := by
  rw [← id_map (access what c k shown f)]
  refine access_blind what c k shown f id (fun x => ?_) fun a b hab => congrArg (fun a => (shown a).mute) hab
  rw [hf]
  cases f x <;> rfl

end Accesses

theorem find_blind (r : ManagerRef) (n : String) : BlindStep Alike (find r n) := by
  intro w v h
  unfold find
  rw [h.managers]
  cases v.managers.lookup r with
  | none => exact ⟨rfl, h⟩
  | some m =>
    obtain ⟨f, m', cs, hfind⟩ := @Manager.find_of_length Entries _ n m v.heap.length
    have hlength : w.heap.length = v.heap.length := by
      simpa only [List.length_map] using congrArg List.length h.caches
    simp only [hfind v.heap rfl, hfind w.heap hlength, h.refused]
    exact ⟨trivial, h.found _ cs _⟩

theorem begin_blind (c : CacheRef) (k : Key) : BlindStep Alike (begin c k) := by
  intro w v h
  have hstart : Alike (if w.quiet then w else (w.tell (.computing c.name k)).name c.name k)
      (if v.quiet then v else (v.tell (.computing c.name k)).name c.name k) := by
    rw [h.quiet]
    split
    · exact h
    · exact h.computing c k
  unfold begin
  revert hstart
  generalize (if w.quiet then w else (w.tell (.computing c.name k)).name c.name k) = w'
  generalize (if v.quiet then v else (v.tell (.computing c.name k)).name c.name k) = v'
  intro h'
  have hbegin : (Backend.begin (w'.cache c) k).map id Cache.stripped =
      (Backend.begin (v'.cache c) k).map id Cache.stripped := by
    rw [← Cache.begin_stripped, ← Cache.begin_stripped, h'.cache c]
  simp only [h'.faults]
  cases v'.faults.strike? c.name .compute with
  | some e => exact ⟨rfl, h'.note .compute c.name (some k) rfl⟩
  | none =>
    have hsame : (Backend.begin (w'.cache c) k).1 = (Backend.begin (v'.cache c) k).1 :=
      (Prod.ext_iff.1 hbegin).1
    have hset := h'.setCache c ((Prod.ext_iff.1 hbegin).2)
    simp only [hsame]
    cases (Backend.begin (v'.cache c) k).1 with
    | answered o => exact ⟨rfl, hset.note .compute c.name (some k) rfl⟩
    | load i => exact ⟨rfl, hset⟩

theorem finish_blind (c : CacheRef) (k : Key) (i : Nat) (loaded : Except String Value) :
    Blind Alike (finish c k i loaded) := by
  intro w v h
  have hfinish : (Backend.finish (w.cache c) k i loaded).map id Cache.stripped =
      (Backend.finish (v.cache c) k i loaded).map id Cache.stripped := by
    rw [← Cache.finish_stripped, ← Cache.finish_stripped, h.cache c]
  have hsame : (Backend.finish (w.cache c) k i loaded).1 =
      (Backend.finish (v.cache c) k i loaded).1 := (Prod.ext_iff.1 hfinish).1
  have hset := h.setCache c ((Prod.ext_iff.1 hfinish).2)
  unfold finish
  simp only [hsame]
  cases (Backend.finish (v.cache c) k i loaded).1 with
  | ok u => exact .ok rfl rfl (hset.note .compute c.name (some k) rfl)
  | error e => exact .error rfl rfl (hset.note .compute c.name (some k) rfl)

theorem withCompiled_alike {α : Type} (f : Compiled → Except ExprError α × Compiled) :
    Blind Alike (withCompiled f) := by
  intro w v h
  unfold withCompiled
  rw [h.compiled]
  rcases f v.compiled with ⟨r | a, c⟩
  · exact .error rfl rfl (h.lend c)
  · exact .ok rfl rfl (h.lend c)

theorem services_unasked_blind : services.unasked.Blind Alike where
  find := find_blind
  test u el t s := withCompiled_alike fun c => c.test u el t s
  key el t s := withCompiled_alike fun c => c.value .key el t s
  get c k :=
    access_blind_of_eq .get c (some k) .found (fun x => .ok (Backend.get x k, x)) fun x =>
      congrArg (fun found => Except.ok (found, x.stripped)) (x.get_stripped k)
  put c k v :=
    access_blind_of_eq .put c (some k) (fun _ => .stored v)
      (fun x => (Backend.put x k v).map fun x => ((), x)) fun x => by
        rw [Cache.put_stripped]
        cases Backend.put x k v <;> rfl
  evict c k :=
    access_blind_of_eq .evict c (some k) (fun _ => .done) (fun x => .ok ((), Backend.evict x k))
      fun x => congrArg (fun y => Except.ok ((), y)) (x.evict_stripped k)
  evictIfPresent c k :=
    access_blind .evictIfPresent c (some k) .truth (fun x => .ok (Backend.evictIfPresent x k))
      (fun _ => false)
      (fun x => congrArg (fun y => Except.ok (false, y)) (x.evictIfPresent_stripped k))
      fun _ _ _ => rfl
  clear c :=
    access_blind_of_eq .clear c none (fun _ => .done) (fun x => .ok ((), Backend.clear x))
      fun x => congrArg (fun y => Except.ok ((), y)) x.clear_stripped
  invalidate c :=
    access_blind .invalidate c none .truth (fun x => .ok (Backend.invalidate x)) (fun _ => false)
      (fun x => congrArg (fun y => Except.ok (false, y)) x.invalidate_stripped)
      fun _ _ _ => rfl
  begin := begin_blind
  finish := finish_blind

end World

section Calls

variable (m : ErrorMode)

theorem evictAll_alike (before : Bool) (r : ResultState) (es : List Eviction) :
    Blind World.Alike (Call.evictAll World.services (.ofMode m) before r es) := by
  have hidle : Blind World.Alike (Call.idle : Call World).invoke := Concur.pure Value.null
  rw [Call.evictAll_unasked]
  exact (World.services_unasked_blind.stepwise (ofMode_blind m) hidle).evictAll before r es

/-- A cache over the map `c` that leaves to the defaults what has one answers each of the requests
    `ss`, and of those within their loads, as the map itself does (`Cache.Step.AsNative`). Evictions
    of `es` that take effect at once end in the same way in `w` and in `w.stripped`, and leave
    worlds that are alike. -/
theorem defaults_suffice (c : MapCache) (ss : List Cache.Step) (r : ResultState)
    (es : List Eviction) (w : World) :
    Cache.Step.AllAsNative ss c ∧
      Parallel World.Alike World.Alike (Call.evictAll World.services (.ofMode m) true r es w)
        (Call.evictAll World.services (.ofMode m) true r es w.stripped) :=
  ⟨Cache.Step.allAsNative ss c, evictAll_alike m true r es w w.stripped w.alike_stripped⟩

end Calls

end CachedCalls
