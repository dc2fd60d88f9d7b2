import CachedCalls.Proofs.Execution.Blind
import CachedCalls.Proofs.Session.Binding
import CachedCalls.Proofs.Source.Lookups

/-!
The memos of a world: the answers of its sources, the metadata of operations and the trees of
expressions. What is memoized is what would be computed again (`Ledger.Faithful`), so worlds that
differ in nothing but their memos (`World.Indistinct`) serve calls alike.
-/

set_option autoImplicit false

namespace CachedCalls

/-- A method for each key and a type for each name. -/
structure Naming where
  method : MethodKey → Method
  type : String → TypeDecl

def Naming.Names (n : Naming) (m : Method) (t : TypeDecl) : Prop :=
  n.method m.key = m ∧ n.type t.name = t

variable {n : Naming} {m : Method} {t : TypeDecl}

/-! Sources. -/

namespace Source

def declared (m : Method) (t : TypeDecl) (s : Source) : List Operation := (s.clear.ask m t).1

/-- Every answer in the memo of a source is what the source computes for the method and the type
    that `n` gives for its element. -/
def Faithful (n : Naming) : Source → Prop
  | fallback f => ∀ e ∈ f.memo, e.2 = f.compute (n.method e.1.method) (n.type e.1.targetType)
  | patterns _ => True

theorem declared_clear (s : Source) : s.clear.declared m t = s.declared m t := by
  cases s <;> rfl

theorem faithful_clear (s : Source) : s.clear.Faithful n := by
  cases s with
  | fallback f => exact fun _ he => nomatch he
  | patterns ps => exact trivial

theorem ask_faithful {s : Source} (hs : s.Faithful n) (hn : n.Names m t) :
    (s.ask m t).1 = s.declared m t ∧ (s.ask m t).2.Faithful n ∧
      (s.ask m t).2.clear = s.clear := by
  cases s with
  | patterns ps => exact ⟨rfl, trivial, rfl⟩
  | fallback f =>
    have hfresh : declared m t (fallback f) = f.compute m t := rfl
    rw [hfresh]
    unfold ask Fallback.ask Provider.ask
    simp only
    cases hl : f.memo.lookup (m.element t) with
    | some os =>
      have hos := hs _ (Fallback.mem_memo_of_lookup hl)
      refine ⟨?_, hs, rfl⟩
      simp only [Method.element, hn.1, hn.2] at hos
      exact hos
    | none =>
      refine ⟨rfl, fun e he => ?_, rfl⟩
      obtain rfl | he := List.mem_cons.1 he
      · simp only [Method.element, hn.1, hn.2]
        rfl
      · exact hs e he

theorem askAll_faithful {ss : List Source} (hss : ∀ s ∈ ss, s.Faithful n) (hn : n.Names m t) :
    (askAll m t ss).1 = ss.flatMap (declared m t) ∧
      (∀ s ∈ (askAll m t ss).2, s.Faithful n) ∧ (askAll m t ss).2.map clear = ss.map clear := by
  induction ss with
  | nil => exact ⟨rfl, fun _ hs => (nomatch hs), rfl⟩
  | cons s ss ih =>
    obtain ⟨hs, hss⟩ := List.forall_mem_cons.1 hss
    obtain ⟨hos, hs', hclear⟩ := ask_faithful hs hn
    obtain ⟨hos', hss', hclear'⟩ := ih hss
    refine ⟨?_, List.forall_mem_cons.2 ⟨hs', hss'⟩, ?_⟩
    · rw [List.flatMap_cons, ← hos, ← hos']
      rfl
    · rw [List.map_cons, ← hclear, ← hclear']
      rfl

theorem declared_congr {ss ss' : List Source} (h : ss.map clear = ss'.map clear) :
    ss.flatMap (declared m t) = ss'.flatMap (declared m t) := by
  have hmap (ss : List Source) : ss.flatMap (declared m t) = (ss.map clear).flatMap (declared m t) := by
    rw [List.flatMap_map]
    exact congrArg (ss.flatMap ·) (funext fun s => (declared_clear s).symm)
  rw [hmap ss, hmap ss', h]

end Source

/-! Metadata. -/

def Operation.standIn (os : List Operation) (o : Operation) : Option Operation :=
  os.find? fun p => decide (p.description = o.description)

structure Ledger where
  sources : List Source
  wiring : Wiring
  metadata : MetadataMemo

namespace Ledger

def declared (l : Ledger) (m : Method) (t : TypeDecl) : List Operation :=
  l.sources.flatMap (·.declared m t)

/-- Every entry of the metadata memo is what the wiring gives for its operation, which is the first
    of its description among those that the sources declare for the element. -/
structure Faithful (n : Naming) (l : Ledger) : Prop where
  sources : ∀ s ∈ l.sources, s.Faithful n
  metadata : ∀ e ∈ l.metadata,
    e.2.operation.standIn (l.declared (n.method e.1.method) (n.type e.1.targetType)) =
        some e.2.operation ∧
      l.wiring.metadata e.2.operation (n.method e.1.method) (n.type e.1.targetType) = .ok e.2

def Primed (l : Ledger) (os : List Operation) (el : Element) : Prop :=
  ∀ o ∈ os, (l.metadata.find? o el).isSome = true

/-- A ledger whose sources declare `os` for `m` on `t`, while these are asked for in turn: `before`
    are those that were. -/
structure Asking (n : Naming) (m : Method) (t : TypeDecl) (os before : List Operation)
    (l : Ledger) : Prop where
  faithful : l.Faithful n
  declared : l.declared m t = os
  primed : l.Primed before (m.element t)

end Ledger

theorem MetadataMemo.find?_congr {k : MetadataMemo} {o p : Operation} {el : Element}
    (h : o.description = p.description) : k.find? o el = k.find? p el := by
  unfold find?
  rw [h]

theorem MetadataMemo.find?_cons {k : MetadataMemo} {o : Operation} {el : Element} {d : Metadata} :
    find? ((el, d) :: k) o el =
      if d.operation.description = o.description then some d else k.find? o el := by
  unfold find?
  by_cases h : d.operation.description = o.description
  · simp [h]
  · simp [h]

theorem Operation.standIn_congr {os : List Operation} {o p : Operation}
    (h : o.description = p.description) : o.standIn os = p.standIn os := by
  unfold standIn
  rw [h]

theorem Operation.standIn_self {before rest : List Operation} {o : Operation}
    (h : ∀ q ∈ before, q.description ≠ o.description) :
    o.standIn (before ++ o :: rest) = some o := by
  have hbefore : ∀ q ∈ before, ¬ decide (q.description = o.description) = true :=
    fun q hq hdesc => h q hq (of_decide_eq_true hdesc)
  unfold standIn
  rw [List.find?_append, List.find?_eq_none.2 hbefore, Option.none_or]
  exact List.find?_cons_of_pos (decide_eq_true rfl)

namespace Ledger

variable {l : Ledger} {o : Operation} {d : Metadata}

theorem Faithful.found (hl : l.Faithful n) (hn : n.Names m t)
    (hf : l.metadata.find? o (m.element t) = some d) :
    o.standIn (l.declared m t) = some d.operation ∧ l.wiring.metadata d.operation m t = .ok d := by
  have hdesc := MetadataMemo.find?_description hf
  obtain ⟨e, hfind, rfl⟩ := Option.map_eq_some_iff.1 hf
  have hkey := List.find?_some hfind
  have hel : e.1 = m.element t := (of_decide_eq_true hkey).1
  obtain ⟨hfirst, hmeta⟩ := hl.metadata e (List.mem_of_find?_eq_some hfind)
  have hnames : n.method e.1.method = m ∧ n.type e.1.targetType = t := by
    rw [hel]
    exact hn
  rw [hnames.1, hnames.2] at hfirst hmeta
  exact ⟨(Operation.standIn_congr hdesc.symm).trans hfirst, hmeta⟩

theorem Faithful.keep (hl : l.Faithful n) (hn : n.Names m t)
    (hfirst : o.standIn (l.declared m t) = some o) (hd : l.wiring.metadata o m t = .ok d) :
    Ledger.Faithful n { l with metadata := (m.element t, d) :: l.metadata } := by
  refine ⟨hl.sources, fun e he => ?_⟩
  obtain rfl | he := List.mem_cons.1 he
  · have hnames : n.method (m.element t).method = m ∧ n.type (m.element t).targetType = t := hn
    simp only [hnames.1, hnames.2, Wiring.metadata_operation hd]
    exact ⟨hfirst, hd⟩
  · exact hl.metadata e he

theorem Primed.add {before : List Operation} {el : Element} (hl : l.Primed before el)
    (ho : l.metadata.find? o el = some d) : l.Primed (before ++ [o]) el := by
  intro q hq
  obtain hq | hq := List.mem_append.1 hq
  · exact hl q hq
  · rw [List.mem_singleton.1 hq, ho]
    rfl

theorem Primed.keep {before : List Operation} {el : Element} (hl : l.Primed before el) :
    Ledger.Primed { l with metadata := (el, d) :: l.metadata } before el := by
  intro q hq
  rw [MetadataMemo.find?_cons]
  split
  · rfl
  · exact hl q hq

theorem Asking.ask {os before rest : List Operation} (hn : n.Names m t)
    (hl : l.Asking n m t os before) (hos : os = before ++ o :: rest) :
    ∃ p, o.standIn os = some p ∧
      (l.metadata.ask l.wiring o m t).1 = l.wiring.metadata p m t ∧
      (∀ d, l.wiring.metadata p m t = .ok d →
        Ledger.Asking n m t os (before ++ [o])
          { l with metadata := (l.metadata.ask l.wiring o m t).2 }) ∧
      Ledger.Faithful n { l with metadata := (l.metadata.ask l.wiring o m t).2 } := by
  unfold MetadataMemo.ask
  cases hf : l.metadata.find? o (m.element t) with
  | some d =>
    obtain ⟨hfirst, hmeta⟩ := hl.faithful.found hn hf
    rw [hl.declared] at hfirst
    exact ⟨d.operation, hfirst, hmeta.symm,
      fun _ _ => ⟨hl.faithful, hl.declared, hl.primed.add hf⟩, hl.faithful⟩
  | none =>
    -- None of those before has this description, or it would be kept.
    have hfirst : o.standIn os = some o := by
      rw [hos]
      refine Operation.standIn_self fun q hq hdesc => ?_
      have hkept := hl.primed q hq
      rw [MetadataMemo.find?_congr hdesc, hf] at hkept
      cases hkept
    refine ⟨o, hfirst, ?_⟩
    cases hm : l.wiring.metadata o m t with
    | error f => exact ⟨rfl, fun _ hd => (nomatch hd), hl.faithful⟩
    | ok d =>
      have hfaithful := hl.faithful.keep hn ((congrArg o.standIn hl.declared).trans hfirst) hm
      have hfound : MetadataMemo.find? ((m.element t, d) :: l.metadata) o (m.element t) = some d := by
        rw [MetadataMemo.find?_cons, Wiring.metadata_operation hm, if_pos rfl]
      exact ⟨rfl, fun _ _ => ⟨hfaithful, hl.declared, hl.primed.keep.add hfound⟩, hfaithful⟩

end Ledger

/-! Worlds. -/

namespace World

def ledger (w : World) : Ledger := ⟨w.sources, w.wiring, w.metadata⟩

/-- `w` and `w'` are equal but for their memos, and their ledgers are as `I` says. -/
def Indistinct (I : Ledger → Prop) (w w' : World) : Prop :=
  w.clearMetadata = w'.clearMetadata ∧ I w.ledger ∧ I w'.ledger

/-- `w` with the sources, the wiring and the memos of `v`. -/
def lend (w v : World) : World :=
  { w with sources := v.sources, wiring := v.wiring, metadata := v.metadata, compiled := v.compiled }

theorem lend_of_clear {w v : World} (h : w.clearMetadata = v.clearMetadata) : w.lend v = v := by
  cases w
  cases v
  simp only [clearMetadata, mk.injEq] at h
  simp only [lend, h]

theorem Indistinct.lend {I : Ledger → Prop} {w v w' : World} (h : Indistinct I w v)
    (hw' : w'.lend w = w') : Indistinct I w' (w'.lend v) := by
  obtain ⟨hclear, hw, hv⟩ := h
  refine ⟨?_, ?_, hv⟩
  · cases w
    cases v
    simp only [clearMetadata, mk.injEq] at hclear
    rw [← hw']
    simp only [clearMetadata, World.lend, hclear]
  · rw [← hw']
    exact hw

/-- The computation `x` neither reads nor changes the sources, the wiring and the memos of a world.
    -/
def Unconcerned {ε α : Type} (x : EStateM ε World α) : Prop :=
  ∀ w v, ended (x (w.lend v)) = ended (x w) ∧ stateOf (x (w.lend v)) = (stateOf (x w)).lend v

variable {I : Ledger → Prop} {ε α : Type}

theorem Unconcerned.blind {x : EStateM ε World α} (hx : Unconcerned x) :
    Blind (Indistinct I) x := by
  intro w v h
  obtain ⟨hended, hstate⟩ := hx w v
  rw [lend_of_clear h.1] at hended hstate
  refine .of_ended hended.symm ?_
  rw [hstate]
  exact h.lend (hx w w).2.symm

theorem blindStep_of_lend {f : World → α × World}
    (hf : ∀ w v, f (w.lend v) = ((f w).1, (f w).2.lend v)) : BlindStep (Indistinct I) f := by
  intro w v h
  have hv := hf w v
  rw [lend_of_clear h.1] at hv
  rw [hv]
  exact ⟨rfl, h.lend (congrArg Prod.snd (hf w w)).symm⟩

theorem lend_ite (p : Prop) [Decidable p] (a b v : World) :
    (if p then a else b).lend v = if p then a.lend v else b.lend v := by
  split <;> rfl

theorem name_lend (w v : World) (cache : String) (k : Key) :
    (w.lend v).name cache k = (w.name cache k).lend v := by
  unfold name
  rw [lend_ite]
  rfl

theorem note_lend (w v : World) (what : AccessName) (cache : String) (k : Option Key) (e : Effect) :
    (w.lend v).note what cache k e = (w.note what cache k e).lend v := by
  unfold note
  rw [lend_ite]
  cases k with
  | none => rfl
  | some k =>
    rw [← name_lend]
    rfl

theorem setCache_lend (w v : World) (c : CacheRef) (x : Cache) :
    (w.lend v).setCache c x = (w.setCache c x).lend v := rfl

theorem access_unconcerned (what : AccessName) (c : CacheRef) (k : Option Key) (shown : α → Effect)
    (f : Cache → Except CacheError (α × Cache)) : Unconcerned (access what c k shown f) := by
  intro w v
  have hstrike : (w.lend v).faults.strike? c.name what = w.faults.strike? c.name what := rfl
  have hcache : (w.lend v).cache c = w.cache c := rfl
  unfold access
  simp only [hstrike, hcache]
  cases w.faults.strike? c.name what with
  | some e => exact ⟨rfl, note_lend w v _ _ _ _⟩
  | none =>
    cases f (w.cache c) with
    | error e => exact ⟨rfl, note_lend w v _ _ _ _⟩
    | ok r => exact ⟨rfl, note_lend (w.setCache c r.2) v _ _ _ _⟩

theorem find_lend (r : ManagerRef) (n : String) (w v : World) :
    find r n (w.lend v) = ((find r n w).1, (find r n w).2.lend v) := by
  have hmanagers : (w.lend v).managers.lookup r = w.managers.lookup r := rfl
  unfold find
  rw [hmanagers]
  cases w.managers.lookup r <;> rfl

theorem begin_lend (c : CacheRef) (k : Key) (w v : World) :
    begin c k (w.lend v) = ((begin c k w).1, (begin c k w).2.lend v) := by
  have hstart : (if (w.lend v).quiet then w.lend v
      else ((w.lend v).tell (.computing c.name k)).name c.name k) =
      (if w.quiet then w else (w.tell (.computing c.name k)).name c.name k).lend v := by
    rw [lend_ite, ← name_lend]
    rfl
  unfold begin
  rw [hstart]
  generalize (if w.quiet then w else (w.tell (.computing c.name k)).name c.name k) = u
  have hstrike : (u.lend v).faults.strike? c.name .compute = u.faults.strike? c.name .compute := rfl
  have hcache : (u.lend v).cache c = u.cache c := rfl
  simp only [hstrike, hcache]
  cases u.faults.strike? c.name .compute with
  | some e => simp only [note_lend]
  | none =>
    cases Backend.begin (u.cache c) k with
    | mk b x => cases b <;> simp only [setCache_lend, note_lend]

theorem finish_unconcerned (c : CacheRef) (k : Key) (i : Nat) (loaded : Except String Value) :
    Unconcerned (finish c k i loaded) := by
  intro w v
  have hcache : (w.lend v).cache c = w.cache c := rfl
  unfold finish
  simp only [hcache]
  cases Backend.finish (w.cache c) k i loaded with
  | mk o x =>
    simp only [setCache_lend, note_lend]
    cases o <;> exact ⟨rfl, rfl⟩

theorem withCompiled_blind {f : Compiled → Except ExprError α × Compiled}
    (hf : ∀ c c', (f c).1 = (f c').1) : Blind (Indistinct I) (withCompiled f) := by
  intro w v h
  have hsame := hf w.compiled v.compiled
  unfold withCompiled
  cases hw : f w.compiled with
  | mk r c =>
    cases hv : f v.compiled with
    | mk r' c' =>
      rw [hw, hv] at hsame
      cases hsame
      cases r with
      | ok a => exact .ok rfl rfl h
      | error e => exact .error rfl rfl h

theorem services_blind : services.Blind (Indistinct I) where
  find r n := blindStep_of_lend (find_lend r n)
  test u el t sc := withCompiled_blind fun c c' =>
    (c.test_fst u el t sc).trans (c'.test_fst u el t sc).symm
  key el t sc := withCompiled_blind fun c c' =>
    (c.value_fst .key el t sc).trans (c'.value_fst .key el t sc).symm
  get c k := (access_unconcerned .get c (some k) .found fun x => .ok (Backend.get x k, x)).blind
  put c k v :=
    (access_unconcerned .put c (some k) (fun _ => .stored v) fun x =>
      (Backend.put x k v).map fun x => ((), x)).blind
  evict c k :=
    (access_unconcerned .evict c (some k) (fun _ => .done) fun x => .ok ((), Backend.evict x k)).blind
  evictIfPresent c k :=
    (access_unconcerned .evictIfPresent c (some k) .truth fun x =>
      .ok (Backend.evictIfPresent x k)).blind
  clear c := (access_unconcerned .clear c none (fun _ => .done) fun x => .ok ((), Backend.clear x)).blind
  invalidate c :=
    (access_unconcerned .invalidate c none .truth fun x => .ok (Backend.invalidate x)).blind
  begin c k := blindStep_of_lend (begin_lend c k)
  finish c k i l := (finish_unconcerned c k i l).blind

/-! Operations and how they are bound. -/

theorem faithful_clearMetadata (w : World) : w.clearMetadata.ledger.Faithful n where
  sources s hs := by
    obtain ⟨s, -, rfl⟩ := List.mem_map.1 hs
    exact s.faithful_clear
  metadata _ he := nomatch he

theorem clearMetadata_clearMetadata (w : World) : w.clearMetadata.clearMetadata = w.clearMetadata := by
  have hclear : Source.clear ∘ Source.clear = Source.clear := funext fun s => by cases s <;> rfl
  unfold clearMetadata
  simp only [List.map_map, hclear]

theorem Indistinct.clear {w w' : World} (h : Indistinct (Ledger.Faithful n) w w') :
    Indistinct (Ledger.Faithful n) w.clearMetadata w' :=
  ⟨w.clearMetadata_clearMetadata.trans h.1, w.faithful_clearMetadata, h.2.2⟩

theorem Indistinct.symm {w w' : World} (h : Indistinct I w w') : Indistinct I w' w :=
  ⟨h.1.symm, h.2.2, h.2.1⟩

theorem Indistinct.wiring {w w' : World} (h : Indistinct I w w') : w.wiring = w'.wiring := by
  have hwiring := congrArg World.wiring h.1
  exact hwiring

theorem Indistinct.handler {w w' : World} (h : Indistinct I w w') : w.handler = w'.handler := by
  have hhandler := congrArg World.handler h.1
  exact hhandler

theorem asking_operations (hn : n.Names m t) {w : World} (hw : w.ledger.Faithful n) :
    Ledger.Asking n m t (w.operations m t).1 [] (w.operations m t).2.ledger := by
  obtain ⟨hos, hfaithful, hclear⟩ := Source.askAll_faithful hw.sources hn
  refine ⟨⟨hfaithful, fun e he => ?_⟩, ?_, fun o ho => nomatch ho⟩
  · obtain ⟨hfirst, hmeta⟩ := hw.metadata e he
    refine ⟨?_, hmeta⟩
    rw [← hfirst]
    exact congrArg e.2.operation.standIn (Source.declared_congr hclear)
  · exact (Source.declared_congr hclear).trans hos.symm

theorem operations_indistinct (hn : n.Names m t) {w w' : World}
    (h : Indistinct (Ledger.Faithful n) w w') :
    (w.operations m t).1 = (w'.operations m t).1 ∧
      Indistinct (Ledger.Asking n m t (w.operations m t).1 []) (w.operations m t).2
        (w'.operations m t).2 := by
  have hsources : w.sources.map Source.clear = w'.sources.map Source.clear := congrArg sources h.1
  obtain ⟨hos, -, hclear⟩ := Source.askAll_faithful h.2.1.sources hn
  obtain ⟨hos', -, hclear'⟩ := Source.askAll_faithful h.2.2.sources hn
  have hsame : (w.operations m t).1 = (w'.operations m t).1 :=
    hos.trans ((Source.declared_congr hsources).trans hos'.symm)
  refine ⟨hsame, ?_, asking_operations hn h.2.1, hsame ▸ asking_operations hn h.2.2⟩
  have hrest : { w.clearMetadata with sources := (w.operations m t).2.sources.map Source.clear } =
      { w'.clearMetadata with sources := (w'.operations m t).2.sources.map Source.clear } := by
    rw [h.1]
    exact congrArg (fun ss => { w'.clearMetadata with sources := ss })
      (hclear.trans (hsources.trans hclear'.symm))
  exact hrest

theorem Indistinct.faithful {os before : List Operation} {w v : World}
    (h : Indistinct (Ledger.Asking n m t os before) w v) :
    Indistinct (Ledger.Faithful n) w v :=
  ⟨h.1, h.2.1.faithful, h.2.2.faithful⟩

theorem askMetadata_parallel (hn : n.Names m t) {os before rest : List Operation} {o : Operation}
    (hos : os = before ++ o :: rest) {w v : World}
    (h : Indistinct (Ledger.Asking n m t os before) w v) :
    Parallel (Indistinct (Ledger.Asking n m t os (before ++ [o]))) (Indistinct (Ledger.Faithful n))
      (askMetadata o m t w) (askMetadata o m t v) := by
  obtain ⟨p, hp, hanswer, hnext, hfaithful⟩ := h.2.1.ask hn hos
  obtain ⟨p', hp', hanswer', hnext', hfaithful'⟩ := h.2.2.ask hn hos
  cases Option.some.inj (hp.symm.trans hp')
  have hwiring : w.wiring.metadata p m t = v.wiring.metadata p m t := by rw [h.wiring]
  have hsame : (w.metadata.ask w.wiring o m t).1 = (v.metadata.ask v.wiring o m t).1 :=
    hanswer.trans (hwiring.trans hanswer'.symm)
  simp only [ledger] at hanswer hnext hfaithful hanswer' hnext' hfaithful'
  unfold askMetadata
  cases hw : w.metadata.ask w.wiring o m t with
  | mk r k =>
    cases hv : v.metadata.ask v.wiring o m t with
    | mk r' k' =>
      rw [hw, hv] at hsame
      rw [hw] at hanswer hnext hfaithful
      rw [hv] at hanswer' hnext' hfaithful'
      cases hsame
      cases r with
      | ok d => exact .ok rfl rfl ⟨h.1, hnext d hanswer.symm, hnext' d hanswer'.symm⟩
      | error f => exact .error rfl rfl ⟨h.1, hfaithful, hfaithful'⟩

theorem bind_parallel {call : Call World} (args : List Value)
    (hn : n.Names call.method call.target.type) {os before rest : List Operation} {o : Operation}
    (hos : os = before ++ o :: rest) {w v : World}
    (h : Indistinct (Ledger.Asking n call.method call.target.type os before) w v) :
    Parallel (Indistinct (Ledger.Asking n call.method call.target.type os (before ++ [o])))
      (Indistinct (Ledger.Faithful n)) (services.bind call args o w)
      (services.bind call args o v) := by
  refine ((askMetadata_parallel hn hos h).adapt _).bind fun d w' v' h' => ?_
  have hrest : Blind (Indistinct (Ledger.Asking n call.method call.target.type os (before ++ [o])))
      (services.findAll d.resolver.manager d.operation.description d.names >>= fun cs =>
        if h : cs = [] then throw (.configuration (.noCaches d.operation.description))
        else pure (⟨d, call.target, args, cs, h⟩ : Bound)) := by
    refine (services_blind.findAll _ _ _).bind fun cs => ?_
    by_cases hcs : cs = []
    · rw [dif_pos hcs]
      exact Concur.throw _
    · rw [dif_neg hcs]
      exact Concur.pure _
  cases hrest w' v' h' with
  | ok hr hr' hq => exact .ok hr hr' hq
  | error hr hr' hq => exact .error hr hr' hq.faithful

theorem bindAll_parallel {call : Call World} (args : List Value)
    (hn : n.Names call.method call.target.type) {os before rest : List Operation}
    (hos : os = before ++ rest) {w v : World}
    (h : Indistinct (Ledger.Asking n call.method call.target.type os before) w v) :
    Parallel (Indistinct (Ledger.Faithful n)) (Indistinct (Ledger.Faithful n))
      (services.bindAll call args rest w) (services.bindAll call args rest v) := by
  -- The operations bound so far go over to those of which something is kept.
  induction rest generalizing before w v with
  | nil => exact .ok rfl rfl h.faithful
  | cons o rest ih =>
    refine (bind_parallel args hn hos h).bind fun b w' v' h' => ?_
    have hos' : os = (before ++ [o]) ++ rest := by rw [hos, List.append_assoc]; rfl
    exact (ih hos' h').bind fun bs _ _ h'' => .ok rfl rfl h''

theorem plan_parallel {call : Call World} (hn : n.Names call.method call.target.type)
    {os : List Operation} {w v : World}
    (h : Indistinct (Ledger.Asking n call.method call.target.type os []) w v) :
    Parallel (Indistinct (Ledger.Faithful n)) (Indistinct (Ledger.Faithful n))
      (Call.plan services call os w) (Call.plan services call os v) := by
  have hos : os = [] ++ os := rfl
  refine (bindAll_parallel (spread call.method call.args) hn hos h).bind fun bs w' v' h' => ?_
  cases Plan.ofBounds call.method.text bs with
  | ok p => exact .ok rfl rfl h'
  | error f => exact .error rfl rfl h'

end World

end CachedCalls
