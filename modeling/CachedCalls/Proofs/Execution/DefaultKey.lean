import CachedCalls.Cache.Entries
import CachedCalls.Proofs.Execution.Meaning

set_option autoImplicit false

namespace CachedCalls

theorem Value.agreesItems_append {as bs cs ds : List Value} (h : as.length = bs.length) :
    agreesItems (as ++ cs) (bs ++ ds) = (agreesItems as bs && agreesItems cs ds) := by
  induction as generalizing bs with
  | nil =>
    cases List.length_eq_zero_iff.1 h.symm
    rfl
  | cons a as ih =>
    obtain ⟨b, bs, rfl⟩ := List.exists_cons_of_length_eq_add_one h.symm
    simp only [List.cons_append, agreesItems, ih (Nat.succ.inj h), Bool.and_assoc]

namespace Key

theorem ofArgs_cases (vs : List Value) :
    ofArgs vs = composite vs ∨ ∃ v, vs = [v] ∧ ofArgs vs = plain v := by
  match vs with
  | [] | [.null] | [.arr _] | _ :: _ :: _ => exact .inl rfl
  | [.bool _] | [.int _] | [.float _] | [.str _] | [.obj _] => exact .inr ⟨_, rfl, rfl⟩

theorem agreesItems_of_ofArgs {as bs : List Value} (h : (ofArgs as).agrees (ofArgs bs) = true) :
    Value.agreesItems as bs = true := by
  obtain has | ⟨a, rfl, has⟩ := ofArgs_cases as <;> obtain hbs | ⟨b, rfl, hbs⟩ := ofArgs_cases bs <;>
    rw [has, hbs] at h
  · exact (Bool.and_eq_true_iff.1 h).2
  · cases h
  · cases h
  · exact Bool.and_eq_true_iff.2 ⟨h, rfl⟩

theorem ofArgs_inj {as bs : List Value} (h : ofArgs as = ofArgs bs) : as = bs := by
  obtain has | ⟨a, rfl, has⟩ := ofArgs_cases as <;> obtain hbs | ⟨b, rfl, hbs⟩ := ofArgs_cases bs <;>
    rw [has, hbs] at h
  · exact composite.inj h
  · cases h
  · cases h
  · rw [plain.inj h]

end Key

/-- For a variadic method, `args` has one argument for each parameter, and the last is a list. -/
def Method.Takes (m : Method) (args : List Value) : Prop :=
  m.varargs = true → args.length = m.params.length ∧ ∃ vs, args.getLast? = some (.arr vs)

variable {m : Method} {as bs : List Value}

theorem spread_fixed (h : m.varargs = false) (args : List Value) : spread m args = args := by
  unfold spread
  rw [h]

theorem spread_append (h : m.varargs = true) (cs vs : List Value) :
    spread m (cs ++ [.arr vs]) = cs ++ vs := by
  unfold spread
  rw [h, List.getLast?_concat, List.dropLast_concat]

theorem Method.Takes.spread (h : m.varargs = true) (has : m.Takes as) :
    ∃ cs vs, cs.length + 1 = m.params.length ∧ as = cs ++ [.arr vs] ∧ spread m as = cs ++ vs := by
  obtain ⟨hlength, vs, hlast⟩ := has h
  obtain ⟨cs, rfl⟩ := List.getLast?_eq_some_iff.1 hlast
  exact ⟨cs, vs, by simpa using hlength, rfl, spread_append h cs vs⟩

theorem agreesItems_of_spread (has : m.Takes as) (hbs : m.Takes bs)
    (h : Value.agreesItems (spread m as) (spread m bs) = true) : Value.agreesItems as bs = true := by
  cases hm : m.varargs with
  | false => rwa [spread_fixed hm, spread_fixed hm] at h
  | true =>
    obtain ⟨cs, vs, hcs, rfl, has⟩ := has.spread hm
    obtain ⟨ds, ws, hds, rfl, hbs⟩ := hbs.spread hm
    have hlength : cs.length = ds.length := by omega
    rw [has, hbs, Value.agreesItems_append hlength] at h
    rw [Value.agreesItems_append hlength]
    simpa [Value.agreesItems, Value.agrees] using h

theorem eq_of_spread (has : m.Takes as) (hbs : m.Takes bs) (h : spread m as = spread m bs) :
    as = bs := by
  cases hm : m.varargs with
  | false => rwa [spread_fixed hm, spread_fixed hm] at h
  | true =>
    obtain ⟨cs, vs, hcs, rfl, has⟩ := has.spread hm
    obtain ⟨ds, ws, hds, rfl, hbs⟩ := hbs.spread hm
    have hlength : cs.length = ds.length := by omega
    obtain ⟨rfl, rfl⟩ := List.append_inj (has.symm.trans (h.trans hbs)) hlength
    rfl

/-- The operation of `b` has no key expression and the generator `simple`, and `b` has the arguments
    of a call of `m` with `args`. -/
structure Bound.Default (b : Bound) (m : Method) (args : List Value) : Prop where
  key : b.operation.key = none
  generator : b.metadata.generator = .simple
  args : b.args = spread m args

theorem Bound.Default.keyIn {b : Bound} (hb : b.Default m as) (r : ResultState) :
    b.keyIn r = .ok (.ofArgs (spread m as)) := by
  rw [Bound.keyIn, hb.key, hb.generator, hb.args]
  rfl

/-- If the default keys of two argument lists agree, so do the lists. For two operations bound with
    default keys, what is stored under the key of `as` shows under the key of `bs` only if `as =
    bs`. -/
theorem default_keys_tell (has : m.Takes as) (hbs : m.Takes bs) :
    (∀ t u : Target, (KeyGenerator.simple t m (spread m as)).agrees
        (KeyGenerator.simple u m (spread m bs)) = true → Value.agreesItems as bs = true) ∧
      ∀ b c : Bound, b.Default m as → c.Default m bs → ∀ (r q : ResultState) (k l : Key),
        b.keyIn r = .ok k → c.keyIn q = .ok l → ∀ (es : Entries) (v : Value),
          (es.put k v).get? l ≠ es.get? l → as = bs := by
  constructor
  · intro t u h
    exact agreesItems_of_spread has hbs (Key.agreesItems_of_ofArgs h)
  · intro b c hb hc r q k l hk hl es v hfound
    cases (hb.keyIn r).symm.trans hk
    cases (hc.keyIn q).symm.trans hl
    by_cases hkeys : Key.ofArgs (spread m bs) = Key.ofArgs (spread m as)
    · exact eq_of_spread has hbs (Key.ofArgs_inj hkeys.symm)
    · exact absurd (by rw [Entries.get?_put, if_neg hkeys]) hfound

def total : Method := ⟨"Shop", "total", [⟨"prices", "f64"⟩], .anyone, true, false⟩

def totalRead (args : List Value) : Bound where
  metadata := ⟨⟨"", ["totals"], none, none, none, none, none, .cacheable none false⟩, total, total,
    ⟨total.key, "Shop"⟩, .simple, ⟨none, none⟩⟩
  target := ⟨.object, .null⟩
  args := spread total args
  caches := [⟨0, "totals"⟩]
  caches_ne := List.cons_ne_nil _ _

theorem default_keys_tell_total :
    total.Takes [.arr [.float 0.0]] ∧ total.Takes [.arr [.float (-0.0)]] ∧
      Value.agreesItems [.arr [.float 0.0]] [.arr [.float (-0.0)]] = true ∧
      (totalRead [.arr [.float 0.0]]).Default total [.arr [.float 0.0]] ∧
      (totalRead [.arr [.float (-0.0)]]).Default total [.arr [.float (-0.0)]] ∧
      (Entries.put [] (.plain (.float 0.0)) .null).get? (.plain (.float (-0.0))) = none := by
  have hplus : total.Takes [.arr [.float 0.0]] := fun _ => ⟨rfl, [.float 0.0], rfl⟩
  have hminus : total.Takes [.arr [.float (-0.0)]] := fun _ => ⟨rfl, [.float (-0.0)], rfl⟩
  obtain ⟨hagree, hfound⟩ := default_keys_tell hplus hminus
  have hplusRead : (totalRead [.arr [.float 0.0]]).Default total [.arr [.float 0.0]] :=
    ⟨rfl, rfl, rfl⟩
  have hminusRead : (totalRead [.arr [.float (-0.0)]]).Default total [.arr [.float (-0.0)]] :=
    ⟨rfl, rfl, rfl⟩
  refine ⟨hplus, hminus, hagree ⟨.object, .null⟩ ⟨.object, .null⟩ rfl, hplusRead, hminusRead, ?_⟩
  refine Decidable.of_not_not fun hserved => ?_
  have hsame : [Value.arr [.float 0.0]] = [.arr [.float (-0.0)]] :=
    hfound _ _ hplusRead hminusRead .unset .unset _ _ rfl rfl [] .null hserved
  exact absurd hsame (by decide)

end CachedCalls
