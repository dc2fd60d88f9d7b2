import CachedCalls.Proofs.Operation.Attribute

set_option autoImplicit false

namespace CachedCalls

namespace Attribute

def inherited : List Attribute := [.cacheNames, .keyGenerator, .manager, .resolver]

end Attribute

def Content.isSet : Content → Bool
  | names ns => !ns.isEmpty
  | text s => s.isSome
  | _ => true

namespace Draft

variable (d : Draft) (f : Defaults)

theorem inherit_spares {a : Attribute} (h : a ∉ Attribute.inherited ∨ (d.content a).isSet) :
    (d.inherit f).content a = d.content a := by
  cases a with
  | cacheNames =>
    have hset : d.cacheNames.isEmpty = false :=
      (Bool.not_eq_true' _).mp (h.resolve_left (by decide))
    exact congrArg Content.names (by simp [operation, inherit, hset])
  | keyGenerator | manager | resolver =>
    obtain ⟨t, ht⟩ := Option.isSome_iff_exists.1 (h.resolve_left (by decide))
    simp only [operation] at ht
    exact congrArg Content.text (by simp [operation, inherit, ht])
  | _ => rfl

theorem inherit_fills : (d.cacheNames = [] → (d.inherit f).cacheNames = f.cacheNames.eraseDups) ∧
    (d.key = none → d.keyGenerator = none → (d.inherit f).keyGenerator = f.keyGenerator) ∧
    (d.manager = none → d.resolver = none → (d.inherit f).resolver = f.resolver ∧
      (f.resolver = none → (d.inherit f).manager = f.manager)) := by
  refine ⟨fun h => ?_, fun hkey h => ?_, fun hmanager hresolver => ⟨?_, fun h => ?_⟩⟩
  · simp [inherit, h, distinct_eq_eraseDups]
  · simp [inherit, hkey, h]
  · simp [inherit, hmanager, hresolver]
  · simp [inherit, hmanager, hresolver, h]

theorem inherit_inherit : (d.inherit f).inherit f = d.inherit f := by
  unfold inherit
  congr 1 <;> dsimp only <;> split_ifs <;> simp_all

theorem inherit_keys : ((d.inherit f).key.isSome && (d.inherit f).keyGenerator.isSome) =
    (d.key.isSome && d.keyGenerator.isSome) := by
  cases hkey : d.key <;> simp [inherit, hkey]

theorem inherit_caches : ((d.inherit f).manager.isSome && (d.inherit f).resolver.isSome) =
    (d.manager.isSome && d.resolver.isSome) := by
  cases hmanager : d.manager with
  | some m => simp [inherit, hmanager]
  | none =>
    cases hresolver : d.resolver with
    | some r => simp [inherit, hmanager, hresolver]
    | none => cases hf : f.resolver <;> simp [inherit, hmanager, hresolver, hf]

theorem build_inherit (e : OperationFault) :
    (d.inherit f).build = .error e ↔ d.build = .error e := by
  have hmisuse : (d.inherit f).misuse = d.misuse := rfl
  unfold build
  rw [inherit_keys, inherit_caches, hmisuse]
  cases d.misuse with
  | some a => rfl
  | none =>
    dsimp only
    split_ifs
    · rfl
    · rfl
    · simp

/-- What a type provides for is inherited where it is missing. It does no harm to a draft: nothing
    that is set is changed, inheriting again changes nothing, no two attributes that exclude each
    other come to be set, and the draft can be built as before or fails as before. -/
theorem inherit_harmless :
    (∀ a, a ∉ Attribute.inherited ∨ (d.content a).isSet → (d.inherit f).content a = d.content a) ∧
    ((d.cacheNames = [] → (d.inherit f).cacheNames = f.cacheNames.eraseDups) ∧
      (d.key = none → d.keyGenerator = none → (d.inherit f).keyGenerator = f.keyGenerator) ∧
      (d.manager = none → d.resolver = none → (d.inherit f).resolver = f.resolver ∧
        (f.resolver = none → (d.inherit f).manager = f.manager))) ∧
    (d.inherit f).inherit f = d.inherit f ∧
    (((d.inherit f).key.isSome ∧ (d.inherit f).keyGenerator.isSome ↔
        d.key.isSome ∧ d.keyGenerator.isSome) ∧
      ((d.inherit f).manager.isSome ∧ (d.inherit f).resolver.isSome ↔
        d.manager.isSome ∧ d.resolver.isSome)) ∧
    ((∃ o, (d.inherit f).build = .ok o) ↔ ∃ o, d.build = .ok o) ∧
    ∀ e, (d.inherit f).build = .error e ↔ d.build = .error e := by
  refine ⟨fun a => d.inherit_spares f, d.inherit_fills f, d.inherit_inherit f, ⟨?_, ?_⟩, ?_,
    d.build_inherit f⟩
  · simpa using congrArg (· = true) (d.inherit_keys f)
  · simpa using congrArg (· = true) (d.inherit_caches f)
  · have herror := d.build_inherit f
    cases hd : d.build with
    | error e => rw [(herror e).2 hd]
    | ok o =>
      cases hf : (d.inherit f).build with
      | error e => exact absurd ((herror e).1 hf) (by rw [hd]; nofun)
      | ok p => exact ⟨fun _ => ⟨o, rfl⟩, fun _ => ⟨p, rfl⟩⟩

def keyed : Draft := cacheable.setAll [.name "Shop.price", .key "#item", .manager "local"]

def shared : Defaults := ⟨["prices", "offers", "prices"], some "byItem", none, some "remote"⟩

theorem inherit_harmless_keyed :
    (keyed.inherit shared).content .key = .text (some "#item") ∧
      (keyed.inherit shared).cacheNames = ["prices", "offers"] ∧
      (keyed.inherit shared).inherit shared = keyed.inherit shared ∧
      (∃ o, (keyed.inherit shared).build = .ok o) ∧
      ∀ e, ((keyed.set (.resolver "near")).inherit shared).build = .error e →
        e = .cachesTwice "Shop.price" := by
  obtain ⟨hspared, ⟨hfilled, -, -⟩, hagain, -, hbuilt, -⟩ := inherit_harmless keyed shared
  obtain ⟨-, -, -, -, -, herror⟩ := inherit_harmless (keyed.set (.resolver "near")) shared
  refine ⟨(hspared .key (.inl (by decide))).trans (by decide +kernel),
    (hfilled (by decide +kernel)).trans (by decide), hagain,
    hbuilt.2 ⟨keyed.operation, by decide +kernel⟩, fun e he => ?_⟩
  have hfault : (keyed.set (.resolver "near")).build = .error (.cachesTwice "Shop.price") := by
    decide +kernel
  exact Except.error.inj (((herror e).1 he).symm.trans hfault)

end Draft

end CachedCalls
