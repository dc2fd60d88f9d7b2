import CachedCalls.Proofs.Execution.Decision
import CachedCalls.Proofs.Key.Hashed
import CachedCalls.Proofs.Session.Store

/-!
The store after a call (`finalEntry`). For each entry, the evictions after the call come first, then
what the call stores, and then the evictions ahead of it.
-/

set_option autoImplicit false

namespace CachedCalls

def Bound.reaches (b : Bound) (p : Nat) : Bool := b.caches.any fun c => decide (p = c.place)

def Bound.covers (same : Key → Key → Bool) (b : Bound) (r : ResultState) (p : Nat) (k : Key) :
    Bool :=
  b.reaches p &&
    match b.keyIn r with
    | .ok l => same k l
    | .error _ => false

def Eviction.covers (same : Key → Key → Bool) (r : ResultState) (p : Nat) (k : Key)
    (e : Eviction) : Bool :=
  e.bound.holds r && if e.allEntries then e.bound.reaches p else e.bound.covers same r p k

def evicts (same : Key → Key → Bool) (es : List Eviction) (before : Bool) (r : ResultState)
    (p : Nat) (k : Key) : Bool :=
  (es.filter (·.before == before)).any (·.covers same r p k)

def writes (same : Key → Key → Bool) (bs : List Bound) (r : ResultState) (v : Value) (p : Nat)
    (k : Key) : Bool :=
  bs.any fun b => b.holds r && (b.permits v && b.covers same r p k)

def finds (reads : List Bound) (S : Store) : Bool :=
  reads.any fun b => b.holds .unset &&
    match b.keyIn .unset with
    | .ok k => b.caches.any fun c => (S c.place k).isSome
    | .error _ => false

def exactly (k l : Key) : Bool := decide (k = l)

/-- The entry in the place `p` under `k` after a call with the operations `bs` that gave `v`, from
    the store `S` before it; keys are one if `same` says so. The reads store `v` only if `finds`
    finds nothing in `S` after the evictions ahead of the call. -/
def finalEntry (same : Key → Key → Bool) (bs : List Bound) (v : Value) (S : Store) (p : Nat)
    (k : Key) : Option Value :=
  let reads := bs.filter (·.isRead)
  let puts := bs.filter (·.isPut)
  let evictions := bs.filterMap (·.eviction?)
  if evicts same evictions false (.available v) p k then none
  else if (!finds reads (S.set (evicts exactly evictions true .unset) none) &&
      writes same reads .unset v p k) || writes same puts (.available v) v p k then some v
  else if evicts same evictions true .unset p k then none
  else S p k

theorem any_congr_mem {α : Type} {f g : α → Bool} {l : List α} (h : ∀ a ∈ l, f a = g a) :
    l.any f = l.any g := by
  rw [Bool.eq_iff_iff, List.any_eq_true, List.any_eq_true]
  exact exists_congr fun a => and_congr_right fun ha => by rw [h a ha]

variable {ps : Nat → Prop} (h : ErrorHandler World)

theorem passes_does (b : Bound) (r : ResultState) : Does ps (b.passes World.services r)
    (fun S p S' => S' = S ∧ b.judge r = .ok p) :=
  .of_still (World.services_still.passes b r) fun _ _ _ => World.services_evaluates.judge_of_passes

theorem key_does (b : Bound) (r : ResultState) : Does ps (b.key World.services r)
    (fun S k S' => S' = S ∧ b.keyIn r = .ok k) :=
  .of_still (World.services_still.drawn b r) fun _ _ _ => World.services_evaluates.keyIn_of_key

section Evictions

variable {c : CacheRef} (hc : ps c.place)

include hc

theorem clearOne_does (immediate : Bool) : Does ps (Call.clearOne World.services h immediate c)
    (Sets (fun p _ => decide (p = c.place)) none) := by
  cases immediate with
  | true => exact .guard (.discard (.invalidate hc)) h
  | false => exact .guard (.clear hc) h

theorem evictOne_does (immediate : Bool) (k : Key) :
    Does ps (Call.evictOne World.services h immediate k c)
      (Sets (fun p l => decide (p = c.place) && decide (l = k)) none) := by
  cases immediate with
  | true => exact .guard (.discard (.evictIfPresent hc k)) h
  | false => exact .guard (.evict hc k) h

end Evictions

theorem keyed_does {b : Bound} {k : Key} {x : Option Value} {f : CacheRef → Act World Unit}
    (hf : ∀ c ∈ b.caches, Does ps (f c)
      (Sets (fun p l => decide (p = c.place) && decide (l = k)) x)) :
    Does ps (b.caches.forM f) (Sets (fun p l => b.reaches p && exactly l k) x) := by
  refine (Does.forM b.caches hf).mono ?_
  rintro S _ S' rfl
  refine congrArg (S.set · x) ?_
  funext p l
  unfold Bound.reaches exactly
  cases decide (l = k) <;> simp

theorem evict_does (r : ResultState) (e : Eviction) (he : ∀ c ∈ e.bound.caches, ps c.place) :
    Does ps (Call.evict World.services h r e) (Sets (fun p k => e.covers exactly r p k) none) := by
  refine .gated ((passes_does e.bound r).mono fun S p S' hp => ⟨hp.1, Bound.holds_of_judge hp.2⟩) ?_
  cases e.allEntries with
  | true => exact .forM e.bound.caches fun c hc => clearOne_does h (he c hc) e.before
  | false =>
    refine .bind (key_does e.bound r) (fun k => keyed_does fun c hc =>
      evictOne_does h (he c hc) e.before k) ?_
    rintro S k _ _ S'' ⟨rfl, hk⟩ rfl
    refine congrArg (Store.set _ · none) ?_
    funext p l
    simp [Bound.covers, hk]

theorem evictAll_does (before : Bool) (r : ResultState) {es : List Eviction}
    (hes : ∀ e ∈ es, ∀ c ∈ e.bound.caches, ps c.place) :
    Does ps (Call.evictAll World.services h before r es)
      (Sets (evicts exactly es before r) none) :=
  .forM _ fun e he => evict_does h r e (hes e (List.mem_filter.1 he).1)

theorem firstHit_does (k : Key) (cs : List CacheRef) (hcs : ∀ c ∈ cs, ps c.place) :
    Does ps (Call.firstHit World.services h k cs)
      (fun S v S' => S' = S ∧ v.isSome = cs.any fun c => (S c.place k).isSome) := by
  induction cs with
  | nil => exact .pure fun S => ⟨rfl, rfl⟩
  | cons c cs ih =>
    obtain ⟨hc, hcs⟩ := List.forall_mem_cons.1 hcs
    refine .bind (.guard (Serves.get hc k) h)
      (T := fun a S v S' => S' = S ∧
        v.isSome = (a.isSome || cs.any fun c => (S c.place k).isSome)) (fun a => ?_) ?_
    · cases a with
      | some v => exact .pure fun S => ⟨rfl, rfl⟩
      | none => exact ih hcs
    · rintro S a _ v S'' ⟨rfl, rfl⟩ ⟨rfl, hv⟩
      exact ⟨rfl, hv⟩

/-- The requests `rs` are for the operations of `bs` whose conditions hold of `r`, each with the key
    that it has then. -/
structure Asks (bs : List Bound) (r : ResultState) (rs : List Request) : Prop where
  bounds : rs.map (·.bound) = bs.filter (·.holds r)
  keys : ∀ q ∈ rs, q.bound.keyIn r = .ok q.key

namespace Asks

theorem mem {bs : List Bound} {r : ResultState} {rs : List Request} (hrs : Asks bs r rs) :
    ∀ q ∈ rs, q.bound ∈ bs := by
  intro q hq
  have hm := List.mem_map_of_mem (f := (·.bound)) hq
  rw [hrs.bounds] at hm
  exact (List.mem_filter.1 hm).1

theorem nil (r : ResultState) : Asks [] r [] := ⟨rfl, fun _ hq => nomatch hq⟩

theorem skip {b : Bound} {bs : List Bound} {r : ResultState} {rs : List Request}
    (hrs : Asks bs r rs) (hb : b.judge r = .ok false) : Asks (b :: bs) r rs := by
  refine ⟨?_, hrs.keys⟩
  rw [List.filter_cons_of_neg (by simp [Bound.holds_of_judge hb])]
  exact hrs.bounds

theorem take {b : Bound} {bs : List Bound} {r : ResultState} {rs : List Request} {k : Key}
    (hrs : Asks bs r rs) (hb : b.judge r = .ok true) (hk : b.keyIn r = .ok k) :
    Asks (b :: bs) r (⟨b, k⟩ :: rs) := by
  refine ⟨?_, List.forall_mem_cons.2 ⟨hk, hrs.keys⟩⟩
  rw [List.filter_cons_of_pos (by simp [Bound.holds_of_judge hb]), List.map_cons, hrs.bounds]

end Asks

def Request.covers (v : Value) (p : Nat) (k : Key) (q : Request) : Bool :=
  q.bound.permits v && (q.bound.reaches p && exactly k q.key)

theorem Asks.any_covers {bs : List Bound} {r : ResultState} {rs : List Request}
    (hrs : Asks bs r rs) (v : Value) (p : Nat) (k : Key) :
    rs.any (·.covers v p k) = writes exactly bs r v p k := by
  have hbound : rs.any (·.covers v p k) =
      (rs.map (·.bound)).any fun b => b.permits v && b.covers exactly r p k := by
    rw [List.any_map]
    refine any_congr_mem fun q hq => ?_
    simp [Request.covers, Bound.covers, hrs.keys q hq]
  rw [hbound, hrs.bounds, List.any_filter]
  rfl

def Search.Ends (reads : List Bound) (S : Store) : Search → Prop
  | .hit _ => finds reads S = true
  | .missed rs => finds reads S = false ∧ Asks reads .unset rs

theorem Search.Ends.skip {b : Bound} {bs : List Bound} {S : Store} {x : Search} (hx : x.Ends bs S)
    (hb : b.judge .unset = .ok false) : x.Ends (b :: bs) S := by
  have hfinds : finds (b :: bs) S = finds bs S := by
    simp [finds, List.any_cons, Bound.holds_of_judge hb]
  cases x with
  | hit v => exact hfinds.trans hx
  | missed rs => exact ⟨hfinds.trans hx.1, hx.2.skip hb⟩

theorem finds_cons {b : Bound} {bs : List Bound} {S : Store} {k : Key}
    (hb : b.judge .unset = .ok true) (hk : b.keyIn .unset = .ok k) :
    finds (b :: bs) S = ((b.caches.any fun c => (S c.place k).isSome) || finds bs S) := by
  simp [finds, List.any_cons, Bound.holds_of_judge hb, hk]

theorem search_does (bs : List Bound) (hbs : ∀ b ∈ bs, ∀ c ∈ b.caches, ps c.place) :
    Does ps (Call.search World.services h bs) (fun S x S' => S' = S ∧ x.Ends bs S) := by
  induction bs with
  | nil => exact .pure fun S => ⟨rfl, rfl, Asks.nil _⟩
  | cons b bs ih =>
    obtain ⟨hcs, hbs⟩ := List.forall_mem_cons.1 hbs
    intro w x w' hw hrun
    -- Every step up to the end of the search leaves the store `w.store` as it is.
    obtain ⟨p, w₁, hp, hrun⟩ := bind_ok.1 hrun
    obtain ⟨hw₁, hS₁, hb⟩ := passes_does b .unset w p w₁ hw hp
    cases p with
    | false =>
      obtain ⟨hw', hS', hx⟩ := ih hbs w₁ x w' hw₁ hrun
      exact ⟨hw', hS'.trans hS₁, (hS₁ ▸ hx).skip hb⟩
    | true =>
      obtain ⟨k, w₂, hk, hrun⟩ := bind_ok.1 hrun
      obtain ⟨hw₂, hS₂, hk⟩ := key_does b .unset w₁ k w₂ hw₁ hk
      obtain ⟨found, w₃, hfound, hrun⟩ := bind_ok.1 hrun
      obtain ⟨hw₃, hS₃, hfound⟩ := firstHit_does h k b.caches hcs w₂ found w₃ hw₂ hfound
      have hS := hS₃.trans (hS₂.trans hS₁)
      have hfinds : finds (b :: bs) w.store = _ := finds_cons hb hk
      rw [hS₂.trans hS₁] at hfound
      cases found with
      | some v =>
        obtain ⟨rfl, rfl⟩ := pure_ok.1 hrun
        refine ⟨hw₃, hS, hfinds.trans ?_⟩
        rw [← hfound]
        rfl
      | none =>
        obtain ⟨y, w₄, hy, hrun⟩ := bind_ok.1 hrun
        obtain ⟨hw₄, hS₄, hy⟩ := ih hbs w₃ y w₄ hw₃ hy
        rw [← hfound, Option.isSome_none, Bool.false_or, ← hS] at hfinds
        cases y with
        | hit v =>
          obtain ⟨rfl, rfl⟩ := pure_ok.1 hrun
          exact ⟨hw₄, hS₄.trans hS, (hS ▸ hfinds).trans (hS ▸ hy)⟩
        | missed rs =>
          obtain ⟨rfl, rfl⟩ := pure_ok.1 hrun
          exact ⟨hw₄, hS₄.trans hS, (hS ▸ hfinds).trans (hS ▸ hy.1), hy.2.take hb hk⟩

theorem requests_keys {vs : List Verdict} {r : ResultState} {rs : List Request} {w w' : World}
    (hrs : Call.requests World.services r vs w = .ok rs w') :
    ∀ q ∈ rs, q.bound.keyIn r = .ok q.key := by
  induction vs generalizing rs w w' with
  | nil =>
    obtain ⟨rfl, -⟩ := pure_ok.1 hrs
    exact fun _ hq => nomatch hq
  | cons v vs ih =>
    obtain ⟨p, w₁, -, hrs⟩ := bind_ok.1 hrs
    cases p with
    | false => exact ih hrs
    | true =>
      obtain ⟨k, w₂, hk, hrs⟩ := bind_ok.1 hrs
      obtain ⟨qs, w₃, hqs, hrs⟩ := bind_ok.1 hrs
      obtain ⟨rfl, -⟩ := pure_ok.1 hrs
      exact List.forall_mem_cons.2 ⟨World.services_evaluates.keyIn_of_key hk, ih hqs⟩

theorem requests_does {r : ResultState} {vs : List Verdict} (hvs : ∀ v ∈ vs, v.Sound) :
    Does ps (Call.requests World.services r vs)
      (fun S rs S' => S' = S ∧ Asks (vs.map (·.1)) r rs) :=
  .of_still (World.services_still.requests r vs) fun _ _ _ hrs =>
    ⟨requests_holds World.services World.services_evaluates hvs hrs, requests_keys hrs⟩

theorem verdicts_does (bs : List Bound) : Does ps (Call.verdicts World.services bs)
    (fun S vs S' => S' = S ∧ vs.map (·.1) = bs ∧ ∀ v ∈ vs, v.Sound) :=
  .of_still (World.services_still.verdicts bs) fun _ _ _ hvs =>
    ⟨verdicts_bounds World.services hvs, verdicts_sound World.services World.services_evaluates hvs⟩

section Method

variable {call : Call World} (hcall : Keeps World.Still call.invoke)

include hcall

theorem invoked_does : Does ps call.invoked (fun S _ S' => S' = S) :=
  (Does.of_still (Q := fun _ => True) (hcall.adapt _) fun _ _ _ _ => trivial).mono
    fun _ _ _ hS => hS.1

theorem renew_does (vs : List Verdict) (v : Value) :
    Does ps (call.renew vs v) (fun S _ S' => S' = S) := by
  unfold Call.renew
  split
  · exact invoked_does hcall
  · exact .pure fun S => rfl

theorem gather_does {reads puts : List Bound} {es : List Eviction}
    (hreads : ∀ b ∈ reads, ∀ c ∈ b.caches, ps c.place)
    (hes : ∀ e ∈ es, ∀ c ∈ e.bound.caches, ps c.place) :
    Does ps (Call.gather World.services h call reads puts es)
      (fun S x S' => S' = S.set (evicts exactly es true .unset) none ∧
        (∀ q ∈ x.2, q.bound ∈ reads ++ puts) ∧ ∀ p k, x.2.any (·.covers x.1 p k) =
          (!finds reads S' && writes exactly reads .unset x.1 p k ||
            writes exactly puts (.available x.1) x.1 p k)) := by
  intro w x w' hw hrun
  obtain ⟨_, w₁, hrun₁, hrun⟩ := bind_ok.1 hrun
  obtain ⟨hw₁, hS₁⟩ := evictAll_does h true .unset hes w _ w₁ hw hrun₁
  obtain ⟨y, w₂, hrun₂, hrun⟩ := bind_ok.1 hrun
  obtain ⟨hw₂, hS₂, hy⟩ := search_does h reads hreads w₁ y w₂ hw₁ hrun₂
  cases y with
  | hit u =>
    obtain ⟨vs, w₃, hrun₃, hrun⟩ := bind_ok.1 hrun
    obtain ⟨hw₃, hS₃, hvs, hsound⟩ := verdicts_does puts w₂ vs w₃ hw₂ hrun₃
    obtain ⟨v, w₄, hrun₄, hrun⟩ := bind_ok.1 hrun
    obtain ⟨hw₄, hS₄⟩ := renew_does hcall vs u w₃ v w₄ hw₃ hrun₄
    obtain ⟨rs, w₅, hrun₅, hrun⟩ := bind_ok.1 hrun
    obtain ⟨hw₅, hS₅, hrs⟩ := requests_does hsound w₄ rs w₅ hw₄ hrun₅
    obtain ⟨rfl, rfl⟩ := pure_ok.1 hrun
    have hS := hS₅.trans (hS₄.trans (hS₃.trans hS₂))
    have hfinds : finds reads w₁.store = true := hy
    subst hvs
    refine ⟨hw₅, hS.trans hS₁, fun q hq => List.mem_append_right _ (hrs.mem q hq), fun p k => ?_⟩
    rw [hS, hfinds]
    exact hrs.any_covers v p k
  | missed ms =>
    obtain ⟨v, w₃, hrun₃, hrun⟩ := bind_ok.1 hrun
    obtain ⟨hw₃, hS₃⟩ := invoked_does hcall w₂ v w₃ hw₂ hrun₃
    obtain ⟨rs, w₄, hrun₄, hrun⟩ := bind_ok.1 hrun
    have hopen : ∀ u ∈ puts.map fun b => ((b, none) : Verdict), Verdict.Sound u := by
      intro u hu
      obtain ⟨b, -, rfl⟩ := List.mem_map.1 hu
      exact Verdict.Sound.of_open b
    obtain ⟨hw₄, hS₄, hrs⟩ := requests_does hopen w₃ rs w₄ hw₃ hrun₄
    obtain ⟨rfl, rfl⟩ := pure_ok.1 hrun
    have hputs : (puts.map fun b => ((b, none) : Verdict)).map (·.1) = puts := by
      rw [List.map_map]
      exact List.map_id puts
    rw [hputs] at hrs
    have hS := hS₄.trans (hS₃.trans hS₂)
    refine ⟨hw₄, hS.trans hS₁, fun q hq => ?_, fun p k => ?_⟩
    · obtain hq | hq := List.mem_append.1 hq
      · exact List.mem_append_left _ (hy.2.mem q hq)
      · exact List.mem_append_right _ (hrs.mem q hq)
    · rw [hS, hy.1, List.any_append, hy.2.any_covers, hrs.any_covers]
      rfl

end Method

theorem store_does (v : Value) (q : Request) (hq : ∀ c ∈ q.bound.caches, ps c.place) :
    Does ps (Call.store World.services h v q) (Sets (fun p k => q.covers v p k) (some v)) := by
  refine .gated (.of_still (World.services_still.allows q.bound (.available v)) fun _ _ _ =>
    World.services_evaluates.permits_of_allows) ?_
  exact keyed_does fun c hc => .guard (.put (hq c hc) q.key v) h

theorem commit_does {es : List Eviction} {v : Value} {rs : List Request}
    (hrs : ∀ q ∈ rs, ∀ c ∈ q.bound.caches, ps c.place)
    (hes : ∀ e ∈ es, ∀ c ∈ e.bound.caches, ps c.place) :
    Does ps (Call.commit World.services h es v rs)
      (fun S u S' => u = v ∧ S' = (S.set (fun p k => rs.any (·.covers v p k)) (some v)).set
        (evicts exactly es false (.available v)) none) := by
  refine .bind (.forM rs fun q hq => store_does h v q (hrs q hq))
    (T := fun _ S u S' => u = v ∧ S' = S.set (evicts exactly es false (.available v)) none)
    (fun _ => ?_) ?_
  · refine .bind (evictAll_does h false (.available v) hes)
      (T := fun _ S u S' => u = v ∧ S' = S) (fun _ => .pure fun S => ⟨rfl, rfl⟩) ?_
    rintro S _ _ u S'' rfl ⟨rfl, rfl⟩
    exact ⟨rfl, rfl⟩
  · rintro S _ _ u S'' rfl ⟨rfl, rfl⟩
    exact ⟨rfl, rfl⟩

theorem covers_congr {same same' : Key → Key → Bool} {b : Bound} {r : ResultState} {k : Key}
    (hk : ∀ l, b.keyIn r = .ok l → same k l = same' k l) (p : Nat) :
    b.covers same r p k = b.covers same' r p k := by
  unfold Bound.covers
  cases hl : b.keyIn r with
  | ok l => simp only [hk l hl]
  | error e => rfl

theorem writes_congr {same same' : Key → Key → Bool} {bs : List Bound} {r : ResultState} {k : Key}
    (hk : ∀ b ∈ bs, ∀ l, b.keyIn r = .ok l → same k l = same' k l) (v : Value) (p : Nat) :
    writes same bs r v p k = writes same' bs r v p k :=
  any_congr_mem fun b hb => by rw [covers_congr (hk b hb)]

theorem evicts_congr {same same' : Key → Key → Bool} {es : List Eviction} {r : ResultState}
    {k : Key} (hk : ∀ e ∈ es, ∀ l, e.bound.keyIn r = .ok l → same k l = same' k l) (before : Bool)
    (p : Nat) : evicts same es before r p k = evicts same' es before r p k := by
  refine any_congr_mem fun e he => ?_
  rw [Eviction.covers, Eviction.covers, covers_congr (hk e (List.mem_filter.1 he).1)]

theorem bound_of_eviction? {b : Bound} {e : Eviction} (h : b.eviction? = some e) : e.bound = b := by
  unfold Bound.eviction? at h
  split at h <;> cases h
  rfl

theorem finalEntry_congr {same same' : Key → Key → Bool} {bs : List Bound} {v : Value} {k : Key}
    (hk : ∀ b ∈ bs, ∀ r, r = .unset ∨ r = .available v → ∀ l, b.keyIn r = .ok l →
      same k l = same' k l) (S : Store) (p : Nat) :
    finalEntry same bs v S p k = finalEntry same' bs v S p k := by
  have hes : ∀ r, r = .unset ∨ r = .available v → ∀ e ∈ bs.filterMap (·.eviction?), ∀ l,
      e.bound.keyIn r = .ok l → same k l = same' k l := by
    intro r hr e he
    obtain ⟨b, hb, hbe⟩ := List.mem_filterMap.1 he
    rw [bound_of_eviction? hbe]
    exact hk b hb r hr
  have hreads : ∀ b ∈ bs.filter (·.isRead), ∀ l, b.keyIn .unset = .ok l → same k l = same' k l :=
    fun b hb => hk b (List.mem_filter.1 hb).1 _ (.inl rfl)
  have hputs : ∀ b ∈ bs.filter (·.isPut), ∀ l, b.keyIn (.available v) = .ok l →
      same k l = same' k l := fun b hb => hk b (List.mem_filter.1 hb).1 _ (.inr rfl)
  simp only [finalEntry, evicts_congr (hes .unset (.inl rfl)),
    evicts_congr (hes (.available v) (.inr rfl)), writes_congr hreads, writes_congr hputs]

theorem World.bindAll_still {call : Call World} {args : List Value} {os : List Operation}
    {bs : List Bound} {w w₁ : World} (hb : services.bindAll call args os w = .ok bs w₁) :
    w.Still w₁ := by
  have hkept := services_still.bindAll call args os w
  rw [hb] at hkept
  exact hkept

def Placed (bs : List Bound) (p : Nat) : Prop := ∃ b ∈ bs, ∃ c ∈ b.caches, c.place = p

theorem placed_of_mem {bs : List Bound} : ∀ b ∈ bs, ∀ c ∈ b.caches, Placed bs c.place :=
  fun b hb c hc => ⟨b, hb, c, hc, rfl⟩

theorem World.Ready.placed {bs : List Bound} {w : World} (hfaults : w.faults = [])
    (hopen : ∀ b ∈ bs, ∀ c ∈ b.caches, w.Open c.place) : w.Ready (Placed bs) := by
  refine ⟨hfaults, ?_⟩
  rintro _ ⟨b, hb, c, hc, rfl⟩
  exact hopen b hb c hc

/-- Let the operations `os`, none of them synchronized, be bound as `bs`, to open maps, and let the
    method leave the caches alone. If the call gives `v`, the entry in the place `p` under `k` is
    `finalEntry exactly bs v w.store p k`. It is `finalEntry Key.agrees bs v w.store p k` as well,
    if every key of the call that agrees with `k` is hashed like `k`. If `w` tells `os` apart, `bs`
    are `os` themselves. -/
theorem execute_store (call : Call World) (os : List Operation)
    (hs : ∀ o ∈ os, o.kind.isSync = false) {bs : List Bound} {w w₁ w' : World} {v : Value}
    (hb : World.services.bindAll call (spread call.method call.args) os w = .ok bs w₁)
    (hopen : ∀ b ∈ bs, ∀ c ∈ b.caches, w₁.Open c.place) (hfaults : w.faults = [])
    (hcall : Keeps World.Still call.invoke)
    (hrun : call.execute World.services h os w = .ok v w') (p : Nat) (k : Key) :
    w'.store p k = finalEntry exactly bs v w.store p k ∧
      (k.agrees k = true →
        (∀ b ∈ bs, ∀ r, r = .unset ∨ r = .available v → ∀ l, b.keyIn r = .ok l →
          k.agrees l = true → k.hashed = l.hashed) →
        w'.store p k = finalEntry Key.agrees bs v w.store p k) ∧
      (w.Tells os call.method call.target.type → bs.map (·.operation) = os) := by
  have hstill := World.bindAll_still hb
  have hready := World.Ready.placed (hstill.faults.trans hfaults) hopen
  have hes : ∀ e ∈ bs.filterMap (·.eviction?), ∀ c ∈ e.bound.caches, Placed bs c.place := by
    intro e he
    obtain ⟨b, hb, hbe⟩ := List.mem_filterMap.1 he
    rw [bound_of_eviction? hbe]
    exact placed_of_mem b hb
  have hentry : w'.store p k = finalEntry exactly bs v w.store p k := by
    rw [execute_phased World.services h hs hb] at hrun
    obtain ⟨⟨u, rs⟩, w₂, hrun₂, hrun⟩ := bind_ok.1 hrun
    obtain ⟨hw₂, hS₂, hrs, hwrites⟩ := gather_does h hcall
      (fun b hb => placed_of_mem b (List.mem_filter.1 hb).1) hes w₁ _ w₂ hready hrun₂
    have hbounds : ∀ q ∈ rs, ∀ c ∈ q.bound.caches, Placed bs c.place := by
      intro q hq
      obtain hm | hm := List.mem_append.1 (hrs q hq)
      · exact placed_of_mem _ (List.mem_filter.1 hm).1
      · exact placed_of_mem _ (List.mem_filter.1 hm).1
    obtain ⟨-, rfl, hS⟩ := commit_does h hbounds hes w₂ v w' hw₂ hrun
    rw [hS, hS₂, hstill.store]
    rw [hS₂, hstill.store] at hwrites
    simp only [finalEntry]
    rw [← hwrites p k]
    rfl
  -- Among the keys of the call, to agree with `k` is to be `k`.
  refine ⟨hentry, fun hself hhashed => hentry.trans (finalEntry_congr ?_ _ _),
    fun htells => (World.services_tells htells).bindAll hb⟩
  intro b hb r hr l hl
  rw [exactly, Bool.eq_iff_iff, decide_eq_true_iff]
  refine ⟨?_, fun ha => Key.eq_of_hashed ha (hhashed b hb r hr l hl ha)⟩
  rintro rfl
  exact hself

theorem priceCall_still (item price : Value) : Keeps World.Still (priceCall item price).invoke :=
  fun _ => .of_heap rfl rfl

def dropPrice : Operation := ⟨"", ["prices"], none, none, none, none, none, .evict false false⟩

theorem World.Open.stocked {w : World} {c : CacheRef} {m : MapCache} {n : String}
    (hw : w.heap[0]? = some (.map m)) (hm : m.allowNull = true) (hc : c ∈ [⟨0, n⟩]) :
    w.Open c.place := by
  cases List.mem_singleton.1 hc
  exact ⟨m, hw, hm⟩

theorem execute_store_dropped :
    (∀ o ∈ [readPrices, dropPrice], o.kind.isSync = false) ∧
      (World.stocked (.plain (.str "tea")) (.int 2)).Tells [readPrices, dropPrice]
        (priceCall (.str "tea") (.int 3)).method shop ∧
      ∃ bs w₁ w', World.services.bindAll (priceCall (.str "tea") (.int 3)) [.str "tea"]
          [readPrices, dropPrice] (World.stocked (.plain (.str "tea")) (.int 2)) = .ok bs w₁ ∧
        bs.map (·.operation) = [readPrices, dropPrice] ∧
        (priceCall (.str "tea") (.int 3)).execute World.services .rethrow [readPrices, dropPrice]
          (World.stocked (.plain (.str "tea")) (.int 2)) = .ok (.int 2) w' ∧
        w'.store 0 (.plain (.str "tea")) = finalEntry Key.agrees bs (.int 2)
          (World.stocked (.plain (.str "tea")) (.int 2)).store 0 (.plain (.str "tea")) := by
  have hs : ∀ o ∈ [readPrices, dropPrice], o.kind.isSync = false := by decide
  have htells : (World.stocked (.plain (.str "tea")) (.int 2)).Tells [readPrices, dropPrice]
      (priceCall (.str "tea") (.int 3)).method shop :=
    ⟨by decide +kernel, fun o _ => World.knows_of_none rfl⟩
  obtain ⟨-, hagree, htold⟩ := execute_store .rethrow (priceCall (.str "tea") (.int 3))
    [readPrices, dropPrice] hs (w := World.stocked (.plain (.str "tea")) (.int 2)) rfl
    (List.forall_mem_cons.2 ⟨fun _ hc => World.Open.stocked (n := "prices") rfl rfl hc,
      List.forall_mem_cons.2 ⟨fun _ hc => World.Open.stocked (n := "prices") rfl rfl hc,
        fun _ hb => nomatch hb⟩⟩)
    rfl (priceCall_still _ _) rfl 0 (.plain (.str "tea"))
  refine ⟨hs, htells, _, _, _, rfl, htold htells, rfl, hagree rfl ?_⟩
  refine List.forall_mem_cons.2 ⟨?_, List.forall_mem_cons.2 ⟨?_, fun _ hb => nomatch hb⟩⟩
  · rintro r - l ⟨⟩ -
    rfl
  · rintro r - l ⟨⟩ -
    rfl

/-- A call that drops the price of `-0.0` leaves the one under `0.0`, of which `finalEntry
    Key.agrees` says that it is dropped too. -/
theorem execute_store_zero :
    (∀ o ∈ [dropPrice], o.kind.isSync = false) ∧
      ∃ bs w₁ w', World.services.bindAll (priceCall (.float (-0.0)) (.int 3)) [.float (-0.0)]
          [dropPrice] (World.stocked (.plain (.float 0.0)) (.int 2)) = .ok bs w₁ ∧
        (∀ b ∈ bs, ∀ c ∈ b.caches, w₁.Open c.place) ∧
        Keeps World.Still (priceCall (.float (-0.0)) (.int 3)).invoke ∧
        (priceCall (.float (-0.0)) (.int 3)).execute World.services .rethrow [dropPrice]
          (World.stocked (.plain (.float 0.0)) (.int 2)) = .ok (.int 3) w' ∧
        w'.store 0 (.plain (.float 0.0)) = some (.int 2) ∧
        finalEntry Key.agrees bs (.int 3) (World.stocked (.plain (.float 0.0)) (.int 2)).store 0
          (.plain (.float 0.0)) = none := by
  have hs : ∀ o ∈ [dropPrice], o.kind.isSync = false := by decide
  refine ⟨hs, _, _, _, rfl, ?_, priceCall_still _ _, rfl, ?_, ?_⟩
  · refine List.forall_mem_cons.2 ⟨fun c hc => ?_, fun _ hb => nomatch hb⟩
    exact World.Open.stocked (n := "prices") rfl rfl hc
  · rfl
  · rfl

end CachedCalls
