import CachedCalls.Proofs.Execution.Act
import CachedCalls.Proofs.Execution.Trace
import CachedCalls.Session.World

/-!
Operations are told apart if no two of them have one description and no foreign metadata is memoized
for them (`World.Tells`). A call is then bound to the operations of its list themselves, and not to
others of the same descriptions (`Services.Tells.bindAll`).
-/

set_option autoImplicit false

namespace CachedCalls

section Services

variable {σ : Type} {sv : Services σ} {os : List Operation} {m : Method} {t : TypeDecl} {s s' : σ}

/-- Some invariant `I` holds of `s` and is kept by finding caches and by asking for metadata of the
    operations `os`; and where `I` holds, the metadata of each of them is about this operation. -/
def Services.Tells (sv : Services σ) (os : List Operation) (m : Method) (t : TypeDecl) (s : σ) :
    Prop :=
  ∃ I : σ → Prop, I s ∧ (∀ r n s, I s → I (sv.find r n s).2) ∧
    ∀ o ∈ os, ∀ s d s', I s → sv.metadata o m t s = .ok d s' → d.operation = o ∧ I s'

theorem Services.findAll_keeps {I : σ → Prop} (hfind : ∀ r n s, I s → I (sv.find r n s).2)
    {r : ManagerRef} {op : String} {ns : List String} {cs : List CacheRef} (hs : I s)
    (h : sv.findAll r op ns s = .ok cs s') : I s' := by
  induction ns generalizing s cs with
  | nil =>
    obtain ⟨-, rfl⟩ := pure_ok.1 h
    exact hs
  | cons n ns ih =>
    have hfound := hfind r n s hs
    simp only [Services.findAll] at h
    generalize sv.find r n s = x at h hfound
    obtain ⟨_ | c, s₁⟩ := x
    · cases h
    · simp only [map_eq_pure_bind] at h
      obtain ⟨cs', s₂, hcs, hp⟩ := bind_ok.1 h
      obtain ⟨-, rfl⟩ := pure_ok.1 hp
      exact ih hfound hcs

theorem Services.Tells.bindAll {call : Call σ} {args : List Value} {bs : List Bound}
    (h : sv.Tells os call.method call.target.type s)
    (hb : sv.bindAll call args os s = .ok bs s') : bs.map (·.operation) = os := by
  obtain ⟨I, hs, hfind, hmeta⟩ := h
  have hall : ∀ ps bs s, (∀ o ∈ ps, o ∈ os) → I s → sv.bindAll call args ps s = .ok bs s' →
      bs.map (·.operation) = ps := by
    intro ps
    induction ps with
    | nil =>
      rintro bs s - - hb
      obtain ⟨rfl, -⟩ := pure_ok.1 hb
      rfl
    | cons o ps ih =>
      intro bs s hps hs hb
      obtain ⟨ho, hps⟩ := List.forall_mem_cons.1 hps
      obtain ⟨b, s₁, hone, hrest⟩ := bind_ok.1 hb
      obtain ⟨bs', s₂, htail, hp⟩ := bind_ok.1 hrest
      obtain ⟨rfl, rfl⟩ := pure_ok.1 hp
      obtain ⟨d, s₃, hd, hone⟩ := bind_ok.1 hone
      obtain ⟨cs, s₄, hcs, hlast⟩ := bind_ok.1 hone
      obtain ⟨hop, hs₃⟩ := hmeta o ho s d s₃ hs (adapt_ok.1 hd)
      have hs₄ := findAll_keeps hfind hs₃ hcs
      split at hlast
      · cases hlast
      · obtain ⟨rfl, rfl⟩ := pure_ok.1 hlast
        rw [List.map_cons, ih bs' _ hps hs₄ htail]
        exact congrArg (· :: ps) hop
  exact hall os bs s (fun _ ho => ho) hs hb

end Services

namespace World

variable {os : List Operation} {m : Method} {t : TypeDecl}

/-- The metadata memo of `w` answers for `o` what the wiring of `w` gives for it. -/
def Knows (w : World) (o : Operation) (m : Method) (t : TypeDecl) : Prop :=
  (w.metadata.ask w.wiring o m t).1 = w.wiring.metadata o m t

theorem knows_iff {w : World} {o : Operation} {m : Method} {t : TypeDecl} :
    w.Knows o m t ↔
      ∀ d, w.metadata.find? o (m.element t) = some d → w.wiring.metadata o m t = .ok d := by
  unfold Knows MetadataMemo.ask
  cases w.metadata.find? o (m.element t) with
  | some d =>
    refine ⟨fun h e he => ?_, fun h => (h d rfl).symm⟩
    cases he
    exact h.symm
  | none =>
    refine ⟨fun _ d hd => (nomatch hd), fun _ => ?_⟩
    cases w.wiring.metadata o m t <;> rfl

theorem knows_of_none {w : World} {o : Operation} {m : Method} {t : TypeDecl}
    (h : w.metadata.find? o (m.element t) = none) : w.Knows o m t :=
  knows_iff.2 fun _ hd => nomatch h.symm.trans hd

theorem knows_clearMetadata (w : World) (o : Operation) (m : Method) (t : TypeDecl) :
    w.clearMetadata.Knows o m t := knows_of_none rfl

def Apart (os : List Operation) : Prop :=
  ∀ o ∈ os, ∀ p ∈ os, o.description = p.description → o = p

instance (os : List Operation) : Decidable (Apart os) :=
  inferInstanceAs (Decidable (∀ o ∈ os, ∀ p ∈ os, o.description = p.description → o = p))

/-- No two of `os` have one description, and for each of them the metadata memo of `w` answers what
    the wiring gives. -/
structure Tells (w : World) (os : List Operation) (m : Method) (t : TypeDecl) : Prop where
  apart : Apart os
  known : ∀ o ∈ os, w.Knows o m t

theorem askMetadata_state (o : Operation) (w : World) :
    stateOf (askMetadata o m t w) = { w with metadata := (w.metadata.ask w.wiring o m t).2 } := by
  unfold askMetadata
  generalize w.metadata.ask w.wiring o m t = x
  obtain ⟨r, k⟩ := x
  cases r <;> rfl

theorem askMetadata_ended (o : Operation) (w : World) :
    ended (askMetadata o m t w) = (w.metadata.ask w.wiring o m t).1 := by
  unfold askMetadata
  generalize w.metadata.ask w.wiring o m t = x
  obtain ⟨r, k⟩ := x
  cases r <;> rfl

theorem askMetadata_cases {o : Operation} {d : Metadata} {w w' : World}
    (h : askMetadata o m t w = .ok d w') : (w.metadata.ask w.wiring o m t).1 = .ok d ∧
      w' = { w with metadata := (w.metadata.ask w.wiring o m t).2 } := by
  rw [← askMetadata_ended, ← askMetadata_state, h]
  exact ⟨rfl, rfl⟩

theorem find?_ask {k : MetadataMemo} {w : Wiring} {o p : Operation} {d : Metadata}
    (h : (k.ask w o m t).2.find? p (m.element t) = some d) :
    k.find? p (m.element t) = some d ∨
      o.description = p.description ∧ w.metadata o m t = .ok d := by
  unfold MetadataMemo.ask at h
  cases hf : k.find? o (m.element t) with
  | some e =>
    rw [hf] at h
    exact .inl h
  | none =>
    rw [hf] at h
    cases hm : w.metadata o m t with
    | error f =>
      rw [hm] at h
      exact .inl h
    | ok e =>
      rw [hm] at h
      have hop : e.operation = o := Wiring.metadata_operation hm
      simp only [MetadataMemo.find?, List.find?_cons] at h
      split at h
      · next heq =>
        have hp := (of_decide_eq_true heq).2
        rw [hop] at hp
        cases h
        exact .inr ⟨hp, rfl⟩
      · exact .inl h

theorem Knows.ask (hos : Apart os) {w : World} {o p : Operation} (ho : o ∈ os) (hp : p ∈ os)
    (hk : w.Knows p m t) :
    Knows { w with metadata := (w.metadata.ask w.wiring o m t).2 } p m t := by
  rw [knows_iff] at hk ⊢
  intro d hd
  obtain hd | ⟨hdesc, hd⟩ := find?_ask hd
  · exact hk d hd
  · rw [← hos o ho p hp hdesc]
    exact hd

theorem services_tells {w : World} (hw : w.Tells os m t) : services.Tells os m t w := by
  refine ⟨fun v => v.Tells os m t, hw, fun r n v hv => ?_, fun o ho v d v' hv hask => ?_⟩
  · change (find r n v).2.Tells os m t
    unfold find
    split
    · exact hv
    · exact ⟨hv.apart, hv.known⟩
  · obtain ⟨hd, rfl⟩ := askMetadata_cases hask
    refine ⟨Wiring.metadata_operation ((hv.known o ho).symm.trans hd), hv.apart, fun p hp => ?_⟩
    exact (hv.known p hp).ask hv.apart ho hp

end World

end CachedCalls
