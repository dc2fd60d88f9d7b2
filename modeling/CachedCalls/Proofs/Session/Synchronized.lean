import CachedCalls.Proofs.Execution.Protocol
import CachedCalls.Proofs.Execution.Told
import CachedCalls.Proofs.Session.Reading

set_option autoImplicit false

namespace CachedCalls

namespace Operation

/-- `o` as a read without a veto, synchronized if `sync` says so. -/
def read (o : Operation) (sync : Bool) : Operation := { o with kind := .cacheable none sync }

end Operation

/-- The error with an empty text in place of the operation that it quotes. -/
def CallError.unnamed : CallError → CallError
  | nullKey _ => nullKey ""
  | e => e

theorem CallError.unnamed_nullKey (d d' : String) : (nullKey d).unnamed = (nullKey d').unnamed :=
  rfl

theorem Wiring.metadata_read (w : Wiring) (o : Operation) (s s' : Bool) (m : Method)
    (t : TypeDecl) : w.metadata (o.read s') m t =
      (w.metadata (o.read s) m t).map fun d => { d with operation := o.read s' } := by
  have hg : w.generatorFor (o.read s') = w.generatorFor (o.read s) := rfl
  have hr : w.resolverFor (o.read s') = w.resolverFor (o.read s) := rfl
  unfold metadata
  rw [hg, hr]
  cases w.generatorFor (o.read s) with
  | error e => rfl
  | ok g =>
    cases w.resolverFor (o.read s) with
    | error e => rfl
    | ok r => rfl

/-- `b` with the operation `o`. -/
def Bound.as (b : Bound) (o : Operation) : Bound :=
  { b with metadata := { b.metadata with operation := o } }

namespace World

theorem askMetadata_eq {o : Operation} {m : Method} {t : TypeDecl} {d : Metadata} {w : World}
    (h : (w.metadata.ask w.wiring o m t).1 = .ok d) : askMetadata o m t w =
      .ok d { w with metadata := (w.metadata.ask w.wiring o m t).2 } := by
  unfold askMetadata
  generalize w.metadata.ask w.wiring o m t = x at h ⊢
  obtain ⟨r, k⟩ := x
  cases h
  rfl

/-- `find` gives the same cache and the same world whatever the metadata memo is, but for this memo.
    -/
theorem find_metadata (r : ManagerRef) (n : String) (w : World) (k : MetadataMemo) :
    find r n { w with metadata := k } =
      ((find r n w).1, { (find r n w).2 with metadata := k }) := by
  unfold find
  cases w.managers.lookup r <;> rfl

theorem findAll_metadata {r : ManagerRef} {op op' : String} {ns : List String} {w w' : World}
    {cs : List CacheRef} (k : MetadataMemo) (h : services.findAll r op ns w = .ok cs w') :
    services.findAll r op' ns { w with metadata := k } = .ok cs { w' with metadata := k } := by
  induction ns generalizing w w' cs with
  | nil =>
    obtain ⟨rfl, rfl⟩ := pure_ok.1 h
    rfl
  | cons n ns ih =>
    have hfind : services.find r n { w with metadata := k } =
        ((services.find r n w).1, { (services.find r n w).2 with metadata := k }) :=
      find_metadata r n w k
    simp only [Services.findAll] at h ⊢
    rw [hfind]
    generalize services.find r n w = x at h ⊢
    obtain ⟨c, w₁⟩ := x
    cases c with
    | none => cases h
    | some c =>
      simp only [map_eq_pure_bind] at h ⊢
      obtain ⟨cs', w₂, hcs, hp⟩ := bind_ok.1 h
      obtain ⟨rfl, rfl⟩ := pure_ok.1 hp
      exact bind_ok.2 ⟨cs', _, ih hcs, rfl⟩

theorem bind_read {call : Call World} {args : List Value} {o : Operation} {s s' : Bool} {b : Bound}
    {w w₁ : World} (hk : w.Knows (o.read s) call.method call.target.type)
    (hk' : w.Knows (o.read s') call.method call.target.type)
    (hb : services.bind call args (o.read s) w = .ok b w₁) : b.operation = o.read s ∧
      ∃ k, services.bind call args (o.read s') w =
        .ok (b.as (o.read s')) { w₁ with metadata := k } := by
  obtain ⟨d, wd, hmeta, hrest⟩ := bind_ok.1 hb
  obtain ⟨cs, wc, hcs, hlast⟩ := bind_ok.1 hrest
  obtain ⟨hask, rfl⟩ := askMetadata_cases (adapt_ok.1 hmeta)
  have hd : w.wiring.metadata (o.read s) call.method call.target.type = .ok d := hk ▸ hask
  have hop : d.operation = o.read s := Wiring.metadata_operation hd
  have hd' : (w.metadata.ask w.wiring (o.read s') call.method call.target.type).1 =
      .ok { d with operation := o.read s' } := by
    rw [hk', Wiring.metadata_read w.wiring o s s', hd]
    rfl
  split at hlast
  · cases hlast
  · next hne =>
    obtain ⟨rfl, rfl⟩ := pure_ok.1 hlast
    have hnames : d.operation.cacheNames = (o.read s').cacheNames := by
      rw [hop]
      rfl
    rw [hnames] at hcs
    obtain ⟨k, hk⟩ : ∃ k, k = (w.metadata.ask w.wiring (o.read s') call.method
        call.target.type).2 := ⟨_, rfl⟩
    have hfound : services.findAll d.resolver.manager (o.read s').description
        (d.resolver.fixed.getD (o.read s').cacheNames) { w with metadata := k } =
        .ok cs { wc with metadata := k } :=
      findAll_metadata (w := { w with metadata := (w.metadata.ask w.wiring (o.read s) call.method
        call.target.type).2 }) k hcs
    have hasked := askMetadata_eq hd'
    rw [← hk] at hasked
    refine ⟨hop, k, bind_ok.2 ⟨_, _, adapt_ok.2 hasked, bind_ok.2 ⟨cs, _, hfound, ?_⟩⟩⟩
    rw [dif_neg hne]
    rfl

end World

section Execute

variable {σ : Type} (sv : Services σ) (h : ErrorHandler σ) {call : Call σ} {o : Operation}
  {b : Bound} {s s₁ : σ} (hb : sv.bind call (spread call.method call.args) o s = .ok b s₁)

include hb

theorem bind_logged : sv.logged.bind call.logged (spread call.method call.args) o (s, []) =
    .ok b (s₁, []) := by
  obtain ⟨u, hu, rfl⟩ := bind_silent sv call (spread call.method call.args) o s []
  rw [hu, hb]
  rfl

theorem bindAll_one : sv.bindAll call (spread call.method call.args) [o] s = .ok [b] s₁ :=
  bind_ok.2 ⟨b, s₁, hb, rfl⟩

theorem execute_read (ho : o.kind = .cacheable none false) (hbo : b.operation.kind = o.kind) :
    call.execute sv h [o] s = Call.runPhased sv h call [b] [] [] s₁ :=
  execute_reads sv h (List.forall_mem_singleton.2 ⟨none, ho⟩)
    (List.forall_mem_singleton.2 ⟨none, hbo.trans ho⟩) (bindAll_one sv hb)

theorem execute_single {c : CacheRef} (hbo : b.operation.kind = .cacheable none true)
    (hc : b.caches = [c]) : call.execute sv h [o] s = Call.runSingle sv call b c s₁ := by
  have hsole : Plan.soleCache b = .ok c := by
    unfold Plan.soleCache
    split
    · next hnil =>
      rw [hnil] at hc
      cases hc
    · next d hd =>
      rw [hd] at hc
      cases hc
      rw [hbo]
      rfl
    · next hmany =>
      rw [hmany] at hc
      cases hc
  have hof : Plan.ofBounds call.method.text [b] = .ok (.single b c) := by
    simp [Plan.ofBounds, Bound.isRead, Bound.isPut, Bound.eviction?, hbo, OperationKind.isSync,
      hsole, Except.map]
  have hplan : Call.plan sv call [o] s = .ok (.single b c) s₁ := by
    change EStateM.bind _ _ s = _
    simp only [EStateM.bind, bindAll_one sv hb, hof]
    rfl
  change EStateM.bind _ _ s = _
  simp only [EStateM.bind, hplan]
  rfl

end Execute

namespace Bound

variable {b : Bound} {o : Operation} {s : Bool} (hb : b.operation = o.read s) (s' : Bool)

include hb

theorem judge_as (r : ResultState) :
    (b.as (o.read s')).judge r = b.judge r := by
  have hc : b.operation.condition = (o.read s').condition := by
    rw [hb]
    rfl
  unfold judge
  rw [hc]
  rfl

theorem keyIn_as (r : ResultState) :
    (b.as (o.read s')).keyIn r = b.keyIn r := by
  have hk : b.operation.key = (o.read s').key := by
    rw [hb]
    rfl
  unfold keyIn
  rw [hk]
  rfl

theorem reading_as (m : MapCache) (out : Except String Value) :
    ((b.as (o.read s')).reading m out).outcome.mapError CallError.unnamed =
        (b.reading m out).outcome.mapError CallError.unnamed ∧
      ((b.as (o.read s')).reading m out).calls = (b.reading m out).calls ∧
      ((b.as (o.read s')).reading m out).entries = (b.reading m out).entries := by
  unfold reading finalKey
  rw [judge_as hb s', keyIn_as hb s']
  cases b.judge .unset with
  | error e => exact ⟨rfl, rfl, rfl⟩
  | ok p =>
    cases p with
    | false => exact ⟨rfl, rfl, rfl⟩
    | true =>
      cases b.keyIn .unset with
      | error e => exact ⟨rfl, rfl, rfl⟩
      | ok k =>
        cases hn : k.isNull with
        | true =>
          simp only [hn, if_true, and_true]
          exact congrArg Except.error (CallError.unnamed_nullKey _ _)
        | false => simp [hn]

end Bound

def Call.readOnce (call : Call World) (o : Operation) (w : World) :
    EStateM.Result CallError (Logged World) Value :=
  call.logged.execute World.services.logged (ErrorHandler.logged .rethrow) [o] (w, [])

theorem Reads.run {c : CacheRef} {m : MapCache} {x : Act (Logged World) Value} {g : Reading}
    (hx : Reads c m x g) {w : World} (hw : w.Has c m) :
    ended (x (w, [])) = g.outcome ∧ invocations (logOf (x (w, []))) = g.calls ∧
      (stateOf (x (w, []))).1.store =
        fun p => if p = c.place then g.entries.get? else w.store p := by
  obtain ⟨m', hcomes, hentries⟩ := hx
  obtain ⟨w', u, hrun, hw', hs, hn⟩ := hcomes w [] hw
  rw [hrun, ended_resultOf, logOf_resultOf, stateOf_resultOf]
  refine ⟨rfl, hn, ?_⟩
  funext p
  by_cases hp : p = c.place
  · rw [if_pos hp, hp, hw'.store_eq, ← hentries]
    rfl
  · rw [if_neg hp, hs p hp]

/-- Let `o`, as a plain read, be bound to one map under which nothing is being loaded, and let the
    method leave the caches alone and end as `out`. Synchronized and not, the method is called as
    often, the call ends in the same way but for the operation that a `nullKey` error quotes, and
    the store is the same. The hypothesis `hknown` is not part of the law: it says that no metadata
    of another operation with the description of `o` is memoized, as is the case in every world
    after `clearMetadata` (`World.knows_clearMetadata`). -/
theorem synchronized_agrees (call : Call World) (o : Operation) {b : Bound} {w w₁ : World}
    (hb : World.services.bind call (spread call.method call.args) (o.read false) w = .ok b w₁)
    {c : CacheRef} (hc : b.caches = [c]) {m : MapCache}
    (hm : w₁.heap[c.place]? = some (.map m)) (hq : m.flights.Quiet) (hfaults : w.faults = [])
    (hknown : ∀ sync, w.Knows (o.read sync) call.method call.target.type)
    (hcall : Keeps World.Still call.invoke) {out : Except String Value}
    (hout : ∀ u, ended (call.invoke u) = out) :
    invocations (logOf (call.readOnce (o.read true) w)) =
        invocations (logOf (call.readOnce (o.read false) w)) ∧
      (ended (call.readOnce (o.read true) w)).mapError CallError.unnamed =
        (ended (call.readOnce (o.read false) w)).mapError CallError.unnamed ∧
      (stateOf (call.readOnce (o.read true) w)).1.store =
        (stateOf (call.readOnce (o.read false) w)).1.store := by
  obtain ⟨hop, k, hb'⟩ := World.bind_read (hknown false) (hknown true) hb
  have hstill : w.Still w₁ := by
    have hbind := World.services_still.bindOne call (spread call.method call.args) (o.read false) w
    rw [hb] at hbind
    exact hbind
  have hhas : w₁.Has c m := ⟨hstill.faults.trans hfaults, hm⟩
  have hhas' : World.Has { w₁ with metadata := k } c m := hhas.of_eq rfl rfl
  have hplain : call.readOnce (o.read false) w = Call.runPhased World.services.logged
      (ErrorHandler.logged .rethrow) call.logged [b] [] [] (w₁, []) :=
    execute_read _ _ (bind_logged World.services hb) rfl (congrArg Operation.kind hop)
  have hsync : call.readOnce (o.read true) w = Call.runSingle World.services.logged call.logged
      (b.as (o.read true)) c ({ w₁ with metadata := k }, []) :=
    execute_single _ _ (bind_logged World.services hb') rfl hc
  have hveto : b.operation.kind.veto = none := by
    rw [hop]
    rfl
  obtain ⟨houtcome, hcalls, hstore⟩ := (runPhased_reads hcall hout hc hveto).run hhas
  obtain ⟨houtcome', hcalls', hstore'⟩ := (runSingle_reads hcall hout (b := b.as (o.read true))
    hq).run hhas'
  obtain ⟨hsame, hsamecalls, hsameentries⟩ := Bound.reading_as hop true m out
  rw [hplain, hsync, houtcome, houtcome', hcalls, hcalls', hstore, hstore']
  refine ⟨hsamecalls, hsame, ?_⟩
  rw [hsameentries]
  rfl

theorem synchronized_agrees_price :
    invocations (logOf ((priceCall (.str "tea") (.int 3)).readOnce (readPrices.read true)
        World.plain)) =
      invocations (logOf ((priceCall (.str "tea") (.int 3)).readOnce (readPrices.read false)
        World.plain)) ∧
    (stateOf ((priceCall (.str "tea") (.int 3)).readOnce (readPrices.read true)
        World.plain)).1.store =
      (stateOf ((priceCall (.str "tea") (.int 3)).readOnce (readPrices.read false)
        World.plain)).1.store ∧
    (stateOf ((priceCall (.str "tea") (.int 3)).readOnce (readPrices.read true)
        World.plain)).1.store 0 (.plain (.str "tea")) = some (.int 3) := by
  have hout (u : World) : ended ((priceCall (.str "tea") (.int 3)).invoke u) = .ok (.int 3) := rfl
  obtain ⟨hcalls, -, hstore⟩ := synchronized_agrees (priceCall (.str "tea") (.int 3)) readPrices
    (w := World.plain) (c := ⟨0, "prices"⟩) (m := ⟨"prices", true, [], {}⟩) rfl rfl rfl
    Flights.quiet_empty rfl (fun _ => World.plain.knows_clearMetadata _ _ _)
    (fun _ => .of_heap rfl rfl) hout
  exact ⟨hcalls, hstore, rfl⟩

end CachedCalls
