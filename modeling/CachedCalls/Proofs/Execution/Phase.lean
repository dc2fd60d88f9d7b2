import CachedCalls.Proofs.Execution.Trace

set_option autoImplicit false

namespace CachedCalls

def Deed.isHit (d : Deed) : Bool :=
  match d.touch, d.ending with
  | .get _ _, .passed (some _) => true
  | _, _ => false

/-- The failure of a cache; that a load reports the failure of the method is none. -/
def Deed.fault? (d : Deed) : Option CacheError :=
  match d.touch, d.ending with
  | .compute _ _, .failed (.notLoaded _ _) => none
  | _, .failed e => some e
  | _, _ => none

def touches (u : List Deed) : List Touch := u.map (·.touch)

theorem touches_append (u v : List Deed) : touches (u ++ v) = touches u ++ touches v :=
  List.map_append

/-- The touches of a list of operations in its order: each operation `b` is passed over, or it adds
    `aims b k` for some key `k`. -/
inductive Course {β : Type} (aims : β → Key → List Touch) : List β → List Touch → Prop where
  | nil : Course aims [] []
  | skip {b : β} {bs : List β} {ts : List Touch} : Course aims bs ts → Course aims (b :: bs) ts
  | take {b : β} {bs : List β} {ts : List Touch} (k : Key) :
      Course aims bs ts → Course aims (b :: bs) (aims b k ++ ts)

theorem Course.idle {β : Type} {aims : β → Key → List Touch} (bs : List β) :
    Course aims bs [] := by
  induction bs with
  | nil => exact .nil
  | cons b bs ih => exact .skip ih

/-- The log `u` touches the first of `ts` in order, and all of them unless `r` is an error. -/
structure Sweep (ts : List Touch) (r : Except CallError Unit) (u : List Deed) : Prop where
  order : touches u <+: ts
  whole : r = .ok () → touches u = ts

namespace Sweep

theorem nil (r : Except CallError Unit) : Sweep [] r [] := ⟨List.prefix_rfl, fun _ => rfl⟩

theorem cut {ts : List Touch} {e : CallError} {u : List Deed} (h : Sweep ts (.error e) u)
    (ts' : List Touch) : Sweep (ts ++ ts') (.error e) u :=
  ⟨h.order.trans (List.prefix_append ts ts'), fun hr => nomatch hr⟩

theorem append {ts ts' : List Touch} {r : Except CallError Unit} {u u' : List Deed}
    (h : Sweep ts (.ok ()) u) (h' : Sweep ts' r u') : Sweep (ts ++ ts') r (u ++ u') := by
  have hw := h.whole rfl
  refine ⟨?_, fun hr => ?_⟩
  · rw [touches_append, hw]
    exact (List.prefix_append_right_inj ts).2 h'.order
  · rw [touches_append, hw, h'.whole hr]

end Sweep

/-- The log `u` gets the first of `ts` in order, and all of them if `r` is `none`. Its last deed
    alone can be a hit, and is one exactly if `r` is a value. -/
structure Sought (ts : List Touch) (r : Except CallError (Option Value)) (u : List Deed) :
    Prop where
  order : touches u <+: ts
  whole : r = .ok none → touches u = ts
  missed : ∀ d ∈ u.dropLast, d.isHit = false
  found : ∀ v, r = .ok (some v) → ∃ c k, u.getLast? = some ⟨.get c k, .passed (some v)⟩
  last : (∀ v, r ≠ .ok (some v)) → ∀ d ∈ u, d.isHit = false

namespace Sought

theorem none_nil : Sought [] (.ok none) [] where
  order := List.prefix_rfl
  whole _ := rfl
  missed _ hd := nomatch hd
  found _ hv := nomatch hv
  last _ _ hd := nomatch hd

theorem error_nil (ts : List Touch) (e : CallError) : Sought ts (.error e) [] where
  order := List.nil_prefix
  whole hr := nomatch hr
  missed _ hd := nomatch hd
  found _ hv := nomatch hv
  last _ _ hd := nomatch hd

theorem cut {ts : List Touch} {r : Except CallError (Option Value)} {u : List Deed}
    (h : Sought ts r u) (hr : r ≠ .ok none) (ts' : List Touch) : Sought (ts ++ ts') r u where
  order := h.order.trans (List.prefix_append ts ts')
  whole hn := absurd hn hr
  missed := h.missed
  found := h.found
  last := h.last

theorem append {ts ts' : List Touch} {r : Except CallError (Option Value)} {u u' : List Deed}
    (h : Sought ts (.ok none) u) (h' : Sought ts' r u') : Sought (ts ++ ts') r (u ++ u') := by
  have hw := h.whole rfl
  have hu := h.last (fun v hv => nomatch hv)
  refine ⟨?_, fun hr => ?_, fun d hd => ?_, fun v hv => ?_, fun hr d hd => ?_⟩
  · rw [touches_append, hw]
    exact (List.prefix_append_right_inj ts).2 h'.order
  · rw [touches_append, hw, h'.whole hr]
  · by_cases hn : u' = []
    · subst hn
      rw [List.append_nil] at hd
      exact hu d (List.dropLast_subset u hd)
    · rw [List.dropLast_append_of_ne_nil hn] at hd
      rcases List.mem_append.1 hd with hd | hd
      · exact hu d hd
      · exact h'.missed d hd
  · obtain ⟨c, k, hl⟩ := h'.found v hv
    refine ⟨c, k, ?_⟩
    rw [List.getLast?_append, hl]
    rfl
  · rcases List.mem_append.1 hd with hd | hd
    · exact hu d hd
    · exact h'.last hr d hd

end Sought

variable {σ : Type} (sv : Services σ) (h : ErrorHandler σ)

theorem guard_tracks {α : Type} (acc : Access) (a : α) {x : EStateM CacheError (Logged σ) α}
    {y : EStateM CacheError σ α} {P : Except CacheError α → List Deed → Prop}
    {R : Except CallError α → List Deed → Prop} (hx : Tracks x y P)
    (hok : ∀ b u, P (.ok b) u → R (.ok b) u) (hpass : ∀ e u, P (.error e) u → R (.ok a) u)
    (herr : ∀ e e' u, P (.error e) u → R (.error e') u) :
    Tracks (h.logged.guard acc a x) (h.guard acc a y) R := by
  intro s t
  obtain ⟨u, hu, hp⟩ := hx s t
  refine ⟨u, ?_⟩
  unfold ErrorHandler.guard
  rw [hu]
  cases hy : y s with
  | ok b q =>
    rw [hy] at hp
    exact ⟨rfl, hok b u hp⟩
  | error e q =>
    rw [hy] at hp
    simp only [withLog, ErrorHandler.logged, silently]
    cases h acc e q with
    | ok _ q => exact ⟨rfl, hpass e u hp⟩
    | error e' q => exact ⟨rfl, herr e (.cache e') u hp⟩

theorem sweep_one (acc : Access) {x : EStateM CacheError (Logged σ) Unit}
    {y : EStateM CacheError σ Unit} {a : Touch}
    (hx : Tracks x y (fun _ u => touches u = [a])) :
    Tracks (h.logged.guard acc () x) (h.guard acc () y) (Sweep [a]) := by
  have hs (r : Except CallError Unit) (u : List Deed) (hu : touches u = [a]) : Sweep [a] r u :=
    ⟨hu ▸ List.prefix_rfl, fun _ => hu⟩
  exact guard_tracks h acc () hx (fun _ u hu => hs _ u hu) (fun _ u hu => hs _ u hu)
    (fun _ _ u hu => hs _ u hu)

theorem recorded_touch {α : Type} (f : Except CacheError α → Deed)
    (y : EStateM CacheError σ α) {a : Touch} (hf : ∀ r, (f r).touch = a) :
    Tracks (recorded f y) y (fun _ u => touches u = [a]) := by
  refine (Tracks.recorded f y).mono ?_
  rintro r u rfl
  exact congrArg (fun b => [b]) (hf r)

theorem recorded_discard {α : Type} (f : Except CacheError α → Deed)
    (y : EStateM CacheError σ α) {a : Touch} (hf : ∀ r, (f r).touch = a) :
    Tracks (discard (recorded f y)) (discard y) (fun _ u => touches u = [a]) := by
  refine Tracks.bind (recorded_touch f y hf) (fun _ _ hu => hu) ?_
  intro b u hu
  refine Tracks.pure ?_
  rw [List.append_nil]
  exact hu

theorem forM_sweep (aim : CacheRef → Touch) {f : CacheRef → Act (Logged σ) Unit}
    {g : CacheRef → Act σ Unit} (hf : ∀ c, Tracks (f c) (g c) (Sweep [aim c]))
    (cs : List CacheRef) : Tracks (cs.forM f) (cs.forM g) (Sweep (cs.map aim)) := by
  induction cs with
  | nil => exact Tracks.pure (Sweep.nil _)
  | cons c cs ih =>
    refine Tracks.bind (hf c) (fun e u hu => hu.cut (cs.map aim)) ?_
    intro _ u hu
    exact ih.mono fun r v hv => hu.append hv

theorem forM_course {β : Type} (aims : β → Key → List Touch) {f : β → Act (Logged σ) Unit}
    {g : β → Act σ Unit}
    (hf : ∀ b, Tracks (f b) (g b) (fun r u => Sweep [] r u ∨ ∃ k, Sweep (aims b k) r u))
    (bs : List β) :
    Tracks (bs.forM f) (bs.forM g) (fun r u => ∃ ts, Course aims bs ts ∧ Sweep ts r u) := by
  induction bs with
  | nil => exact Tracks.pure ⟨[], .nil, Sweep.nil _⟩
  | cons b bs ih =>
    refine Tracks.bind (hf b) ?_ ?_
    · rintro e u (hu | ⟨k, hu⟩)
      · exact ⟨[], .idle (b :: bs), hu⟩
      · exact ⟨aims b k ++ [], .take k (.idle bs), hu.cut []⟩
    · rintro _ u (hu | ⟨k, hu⟩)
      · refine ih.mono ?_
        rintro r v ⟨ts, hts, hv⟩
        exact ⟨ts, .skip hts, hu.append hv⟩
      · refine ih.mono ?_
        rintro r v ⟨ts, hts, hv⟩
        exact ⟨aims b k ++ ts, .take k hts, hu.append hv⟩

def Eviction.aim (e : Eviction) (k : Key) (c : CacheRef) : Touch :=
  if e.allEntries then if e.before then .invalidate c else .clear c
  else if e.before then .evictIfPresent c k else .evict c k

def Eviction.aims (e : Eviction) (k : Key) : List Touch := e.bound.caches.map (e.aim k)

def Bound.reads (b : Bound) (k : Key) : List Touch := b.caches.map (.get · k)

def Bound.writes (v : Value) (b : Bound) (k : Key) : List Touch := b.caches.map (.put · k v)

theorem clearOne_tracks (immediate : Bool) (c : CacheRef) :
    Tracks (Call.clearOne sv.logged h.logged immediate c) (Call.clearOne sv h immediate c)
      (Sweep [if immediate then .invalidate c else .clear c]) := by
  cases immediate with
  | true =>
    exact sweep_one h (.clear c)
      (recorded_discard (fun r => ⟨.invalidate c, .ofDone r⟩) (sv.invalidate c) fun _ => rfl)
  | false =>
    exact sweep_one h (.clear c)
      (recorded_touch (fun r => ⟨.clear c, .ofDone r⟩) (sv.clear c) fun _ => rfl)

theorem evictOne_tracks (immediate : Bool) (k : Key) (c : CacheRef) :
    Tracks (Call.evictOne sv.logged h.logged immediate k c) (Call.evictOne sv h immediate k c)
      (Sweep [if immediate then .evictIfPresent c k else .evict c k]) := by
  cases immediate with
  | true =>
    exact sweep_one h (.evict c k)
      (recorded_discard (fun r => ⟨.evictIfPresent c k, .ofDone r⟩) (sv.evictIfPresent c k)
        fun _ => rfl)
  | false =>
    exact sweep_one h (.evict c k)
      (recorded_touch (fun r => ⟨.evict c k, .ofDone r⟩) (sv.evict c k) fun _ => rfl)

theorem evict_tracks (r : ResultState) (e : Eviction) :
    Tracks (Call.evict sv.logged h.logged r e) (Call.evict sv h r e)
      (fun x u => Sweep [] x u ∨ ∃ k, Sweep (e.aims k) x u) := by
  have hidle (x : Except CallError Unit) : Sweep [] x [] ∨ ∃ k, Sweep (e.aims k) x [] :=
    .inl (Sweep.nil x)
  have haims {k : Key} {f : CacheRef → Act (Logged σ) Unit} {g : CacheRef → Act σ Unit}
      (hf : ∀ c, Tracks (f c) (g c) (Sweep [e.aim k c])) :
      Tracks (e.bound.caches.forM f) (e.bound.caches.forM g)
        (fun x u => Sweep [] x u ∨ ∃ k, Sweep (e.aims k) x u) :=
    (forM_sweep (e.aim k) hf e.bound.caches).mono fun x v hv => .inr ⟨k, hv⟩
  refine Tracks.bind_silent (passes_silent sv e.bound r) (fun _ => hidle _) ?_
  intro passing
  cases passing with
  | false => exact Tracks.pure (hidle _)
  | true =>
    cases ha : e.allEntries with
    | true =>
      refine haims (k := .plain .null) fun c => ?_
      rw [Eviction.aim, if_pos ha]
      exact clearOne_tracks sv h e.before c
    | false =>
      refine Tracks.bind_silent (key_silent sv e.bound r) (fun _ => hidle _) ?_
      intro k
      refine haims (k := k) fun c => ?_
      rw [Eviction.aim, if_neg (ne_true_of_eq_false ha)]
      exact evictOne_tracks sv h e.before k c

theorem evictAll_tracks (before : Bool) (r : ResultState) (es : List Eviction) :
    Tracks (Call.evictAll sv.logged h.logged before r es) (Call.evictAll sv h before r es)
      (fun x u => ∃ ts, Course Eviction.aims (es.filter (·.before == before)) ts ∧ Sweep ts x u) :=
  forM_course Eviction.aims (evict_tracks sv h r) _

theorem Sought.one {c : CacheRef} {k : Key} {d : Deed} (ht : d.touch = .get c k)
    (hd : d.isHit = false) {r : Except CallError (Option Value)} (hr : ∀ v, r ≠ .ok (some v)) :
    Sought [.get c k] r [d] where
  order := by rw [touches, List.map_cons, ht]; exact List.prefix_rfl
  whole _ := by rw [touches, List.map_cons, ht]; rfl
  missed _ hm := nomatch hm
  found v hv := absurd hv (hr v)
  last _ b hb := (List.mem_singleton.1 hb) ▸ hd

theorem Sought.hit (c : CacheRef) (k : Key) (v : Value) :
    Sought [.get c k] (.ok (some v)) [⟨.get c k, .passed (some v)⟩] where
  order := List.prefix_rfl
  whole hr := nomatch hr
  missed _ hm := nomatch hm
  found w hw := by cases hw; exact ⟨c, k, rfl⟩
  last hr := absurd rfl (hr v)

theorem get_tracks (k : Key) (c : CacheRef) :
    Tracks (h.logged.guard (.get c k) none (sv.logged.get c k))
      (h.guard (.get c k) none (sv.get c k)) (Sought [.get c k]) := by
  refine guard_tracks h _ _
    (Tracks.recorded (fun r => ⟨.get c k, .ofFound r⟩) (sv.get c k)) ?_ ?_ ?_
  · rintro b u rfl
    cases b with
    | none => exact Sought.one rfl rfl fun v hv => nomatch hv
    | some v => exact Sought.hit c k v
  · rintro e u rfl
    exact Sought.one rfl rfl fun v hv => nomatch hv
  · rintro e e' u rfl
    exact Sought.one rfl rfl fun v hv => nomatch hv

theorem firstHit_tracks (k : Key) (cs : List CacheRef) :
    Tracks (Call.firstHit sv.logged h.logged k cs) (Call.firstHit sv h k cs)
      (Sought (cs.map (.get · k))) := by
  induction cs with
  | nil => exact Tracks.pure Sought.none_nil
  | cons c cs ih =>
    refine Tracks.bind (get_tracks sv h k c)
      (fun e u hu => hu.cut (fun hn => nomatch hn) (cs.map (.get · k))) ?_
    intro found u hu
    cases found with
    | none => exact ih.mono fun r v hv => hu.append hv
    | some v =>
      refine Tracks.pure ?_
      rw [List.append_nil]
      exact hu.cut (fun hn => nomatch hn) (cs.map (.get · k))

def Search.value? : Search → Option Value
  | .hit v => some v
  | .missed _ => none

def Search.requests : Search → List Request
  | .hit _ => []
  | .missed rs => rs

structure Searched (bs : List Bound) (r : Except CallError Search) (u : List Deed) : Prop where
  deeds : ∃ ts, Course Bound.reads bs ts ∧ Sought ts (r.map Search.value?) u
  requests : ∀ x, r = .ok x → (x.requests.map (·.bound)).Sublist bs

theorem search_tracks (bs : List Bound) :
    Tracks (Call.search sv.logged h.logged bs) (Call.search sv h bs) (Searched bs) := by
  induction bs with
  | nil =>
    refine Tracks.pure ⟨⟨[], .nil, Sought.none_nil⟩, ?_⟩
    rintro x ⟨⟩
    exact List.Sublist.refl _
  | cons b bs ih =>
    have herror (e : CallError) : Searched (b :: bs) (.error e) [] :=
      ⟨⟨[], .idle _, Sought.error_nil [] e⟩, fun _ hx => nomatch hx⟩
    refine Tracks.bind_silent (passes_silent sv b .unset) herror ?_
    intro passing
    cases passing with
    | false =>
      refine ih.mono ?_
      rintro r v ⟨⟨ts, hts, hv⟩, hr⟩
      exact ⟨⟨ts, .skip hts, hv⟩, fun x hx => (hr x hx).cons b⟩
    | true =>
      refine Tracks.bind_silent (key_silent sv b .unset) herror ?_
      intro k
      refine Tracks.bind (firstHit_tracks sv h k b.caches) (fun e u hu => ?_) ?_
      · exact ⟨⟨b.reads k ++ [], .take k (.idle bs), hu.cut (fun hn => nomatch hn) []⟩,
          fun _ hx => nomatch hx⟩
      intro found u hu
      cases found with
      | some v =>
        refine Tracks.pure ⟨⟨b.reads k ++ [], .take k (.idle bs), ?_⟩, ?_⟩
        · simp only [List.append_nil]
          exact hu
        · rintro x ⟨⟩
          exact List.nil_sublist _
      | none =>
        refine Tracks.bind ih ?_ ?_
        · rintro e v ⟨⟨ts, hts, hv⟩, -⟩
          exact ⟨⟨b.reads k ++ ts, .take k hts, hu.append hv⟩, fun _ hx => nomatch hx⟩
        · rintro x v ⟨⟨ts, hts, hv⟩, hr⟩
          cases x with
          | hit w =>
            refine Tracks.pure ⟨⟨b.reads k ++ ts, .take k hts, ?_⟩, ?_⟩
            · simp only [List.append_nil]
              exact hu.append hv
            · rintro x ⟨⟩
              exact List.nil_sublist _
          | missed rs =>
            refine Tracks.pure ⟨⟨b.reads k ++ ts, .take k hts, ?_⟩, ?_⟩
            · simp only [List.append_nil]
              exact hu.append hv
            · rintro x ⟨⟩
              exact (hr _ rfl).cons_cons b

theorem verdict_tracks (b : Bound) :
    Tracks (Call.verdict sv.logged b) (Call.verdict sv b)
      (fun r u => u = [] ∧ ∀ v, r = .ok v → v.1 = b) := by
  intro s t
  obtain ⟨u, hu, rfl⟩ := test_silent sv b .pending s t
  refine ⟨[], ?_⟩
  unfold Call.verdict
  rw [hu]
  cases b.test sv .pending s with
  | ok p q => exact ⟨rfl, rfl, fun v hv => by cases hv; rfl⟩
  | error e q =>
    cases e with
    | notAvailable n => exact ⟨rfl, rfl, fun v hv => by cases hv; rfl⟩
    | _ => exact ⟨rfl, rfl, fun v hv => nomatch hv⟩

theorem verdict_silent (b : Bound) : Silent (Call.verdict sv.logged b) (Call.verdict sv b) :=
  (verdict_tracks sv b).mono fun _ _ hu => hu.1

theorem verdicts_tracks (bs : List Bound) :
    Tracks (Call.verdicts sv.logged bs) (Call.verdicts sv bs)
      (fun r u => u = [] ∧ ∀ vs, r = .ok vs → vs.map (·.1) = bs) := by
  induction bs with
  | nil => exact Tracks.pure ⟨rfl, fun vs hvs => by cases hvs; rfl⟩
  | cons b bs ih =>
    refine Tracks.bind (verdict_tracks sv b) (fun e u hu => ⟨hu.1, fun vs hvs => nomatch hvs⟩) ?_
    rintro v u ⟨rfl, hv⟩
    refine Tracks.bind ih (fun e u hu => ⟨hu.1, fun vs hvs => nomatch hvs⟩) ?_
    rintro vs u ⟨rfl, hvs⟩
    refine Tracks.pure ⟨rfl, ?_⟩
    rintro ws ⟨⟩
    rw [List.map_cons, hv v rfl, hvs vs rfl]

theorem settle_tracks (r : ResultState) (v : Verdict) :
    Tracks (Call.settle sv.logged r v) (Call.settle sv r v)
      (fun x u => u = [] ∧ (x = .ok true → Call.effective v = true)) := by
  obtain ⟨b, p⟩ := v
  cases p with
  | none => exact (passes_silent sv b r).mono fun x u hu => ⟨hu, fun _ => rfl⟩
  | some p =>
    refine Tracks.pure ⟨rfl, ?_⟩
    rintro ⟨⟩
    rfl

theorem requests_tracks (r : ResultState) (vs : List Verdict) :
    Tracks (Call.requests sv.logged r vs) (Call.requests sv r vs)
      (fun x u => u = [] ∧ ∀ rs, x = .ok rs → (rs.map (·.bound)).Sublist (vs.map (·.1)) ∧
        (vs.any Call.effective = false → rs = [])) := by
  induction vs with
  | nil =>
    refine Tracks.pure ⟨rfl, ?_⟩
    rintro rs ⟨⟩
    exact ⟨List.Sublist.refl _, fun _ => rfl⟩
  | cons v vs ih =>
    refine Tracks.bind (settle_tracks sv r v) (fun e u hu => ⟨hu.1, fun _ hrs => nomatch hrs⟩) ?_
    rintro passing u ⟨rfl, hv⟩
    cases passing with
    | false =>
      refine ih.mono ?_
      rintro x u ⟨hu, hx⟩
      refine ⟨hu, fun rs hrs => ⟨(hx rs hrs).1.cons v.1, fun hany => (hx rs hrs).2 ?_⟩⟩
      exact (Bool.or_eq_false_iff.1 hany).2
    | true =>
      refine Tracks.bind_silent (key_silent sv v.1 r) (fun e => ⟨rfl, fun _ hrs => nomatch hrs⟩) ?_
      intro k
      refine Tracks.bind ih (fun e u hu => ⟨hu.1, fun _ hrs => nomatch hrs⟩) ?_
      rintro rs u ⟨rfl, hx⟩
      refine Tracks.pure ⟨rfl, ?_⟩
      rintro rs ⟨⟩
      refine ⟨(hx _ rfl).1.cons_cons v.1, fun hany => ?_⟩
      have hnot := (Bool.or_eq_false_iff.1 hany).1
      rw [hv rfl] at hnot
      cases hnot

end CachedCalls
