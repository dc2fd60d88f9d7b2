import CachedCalls.Cache.Entries
import CachedCalls.Proofs.Key.Hashed

set_option autoImplicit false

namespace CachedCalls

namespace Value

mutual

/-- Zeros in the same places have the same sign. -/
def zerosAlike : Value → Value → Bool
  | float a, float b => decide ((a == 0.0) = true → a = b)
  | arr as, arr bs => zerosAlikeItems as bs
  | obj as, obj bs => zerosAlikeFields as bs
  | _, _ => true

def zerosAlikeItems : List Value → List Value → Bool
  | a :: as, b :: bs => zerosAlike a b && zerosAlikeItems as bs
  | _, _ => true

def zerosAlikeFields : List (String × Value) → List (String × Value) → Bool
  | (_, a) :: as, (_, b) :: bs => zerosAlike a b && zerosAlikeFields as bs
  | _, _ => true

end

mutual

theorem zerosAlike_self (a : Value) : zerosAlike a a = true := by
  match a with
  | null | bool _ | int _ | str _ => rfl
  | float x => exact decide_eq_true fun _ => rfl
  | arr as => exact zerosAlikeItems_self as
  | obj fs => exact zerosAlikeFields_self fs

theorem zerosAlikeItems_self (as : List Value) : zerosAlikeItems as as = true := by
  match as with
  | [] => rfl
  | a :: as => exact Bool.and_eq_true_iff.2 ⟨zerosAlike_self a, zerosAlikeItems_self as⟩

theorem zerosAlikeFields_self (fs : List (String × Value)) : zerosAlikeFields fs fs = true := by
  match fs with
  | [] => rfl
  | (_, a) :: fs => exact Bool.and_eq_true_iff.2 ⟨zerosAlike_self a, zerosAlikeFields_self fs⟩

end

mutual

theorem eq_of_zerosAlike {a b : Value} (h : a.agrees b = true) (hz : zerosAlike a b = true) :
    a = b := by
  match a, b with
  | null, null => rfl
  | bool a, bool b => exact congrArg bool (of_decide_eq_true h)
  | int a, int b => exact congrArg int (of_decide_eq_true h)
  | float a, float b =>
    obtain hab | ⟨ha, -⟩ := Number.eq_or_zero_of_beq h
    · exact congrArg float hab
    · exact congrArg float (of_decide_eq_true hz ha)
  | str a, str b => exact congrArg str (of_decide_eq_true h)
  | arr as, arr bs => exact congrArg arr (items_of_zerosAlike h hz)
  | obj as, obj bs => exact congrArg obj (fields_of_zerosAlike h hz)

theorem items_of_zerosAlike {as bs : List Value} (h : agreesItems as bs = true)
    (hz : zerosAlikeItems as bs = true) : as = bs := by
  match as, bs with
  | [], [] => rfl
  | a :: as, b :: bs =>
    obtain ⟨ha, has⟩ := Bool.and_eq_true_iff.1 h
    obtain ⟨hza, hzas⟩ := Bool.and_eq_true_iff.1 hz
    rw [eq_of_zerosAlike ha hza, items_of_zerosAlike has hzas]

theorem fields_of_zerosAlike {as bs : List (String × Value)} (h : agreesFields as bs = true)
    (hz : zerosAlikeFields as bs = true) : as = bs := by
  match as, bs with
  | [], [] => rfl
  | (k, a) :: as, (l, b) :: bs =>
    obtain ⟨hk, h⟩ := Bool.and_eq_true_iff.1 h
    obtain ⟨ha, has⟩ := Bool.and_eq_true_iff.1 h
    obtain ⟨hza, hzas⟩ := Bool.and_eq_true_iff.1 hz
    rw [of_decide_eq_true hk, eq_of_zerosAlike ha hza, fields_of_zerosAlike has hzas]

end

theorem hashed_eq_iff {a b : Value} (h : a.agrees b = true) :
    a.hashed = b.hashed ↔ zerosAlike a b = true := by
  constructor
  · intro hh
    rw [eq_of_hashed h hh]
    exact zerosAlike_self b
  · intro hz
    rw [eq_of_zerosAlike h hz]

theorem hashedItems_eq_iff {as bs : List Value} (h : agreesItems as bs = true) :
    hashedItems as = hashedItems bs ↔ zerosAlikeItems as bs = true := by
  constructor
  · intro hh
    rw [items_of_hashed h hh]
    exact zerosAlikeItems_self bs
  · intro hz
    rw [items_of_zerosAlike h hz]

end Value

namespace Key

def zerosAlike : Key → Key → Bool
  | plain a, plain b => a.zerosAlike b
  | composite as, composite bs => Value.zerosAlikeItems as bs
  | _, _ => true

theorem paramsHashed_eq_iff {as bs : List Value} (h : Value.agreesItems as bs = true) :
    paramsHashed as = paramsHashed bs ↔ Value.zerosAlikeItems as bs = true := by
  rw [← Value.hashedItems_eq_iff h]
  constructor
  · intro hh
    exact (List.cons.inj hh).2
  · intro hh
    rw [Value.items_of_hashed h hh]

theorem hashed_eq_iff {k l : Key} (h : k.agrees l = true) :
    k.hashed = l.hashed ↔ k.zerosAlike l = true := by
  match k, l with
  | plain a, plain b =>
    rw [zerosAlike, ← Value.hashed_eq_iff h]
    simp [hashed]
  | composite as, composite bs =>
    rw [zerosAlike, ← paramsHashed_eq_iff (Bool.and_eq_true_iff.1 h).2]
    simp [hashed]

theorem get?_put_of_hashed {k l : Key} (h : k.agrees l = true) (hh : k.hashed = l.hashed)
    (es : Entries) (v : Value) : (es.put k v).get? l = some v := by
  rw [eq_of_hashed h hh, Entries.get?_put, if_pos rfl]

theorem ofArgs_pair {as bs : List Value} (h : Value.agreesItems as bs = true) :
    (∃ a b, as = [a] ∧ bs = [b] ∧ ofArgs as = .plain a ∧ ofArgs bs = .plain b) ∨
      (ofArgs as = .composite as ∧ ofArgs bs = .composite bs) := by
  match as, bs with
  | [], [] | _ :: _ :: _, _ :: _ :: _ => exact .inr ⟨rfl, rfl⟩
  | [a], b :: _ :: _ | a :: _ :: _, [b] => cases (Bool.and_eq_true_iff.1 h).2
  | [a], [b] =>
    match a, b, (Bool.and_eq_true_iff.1 h).1 with
    | .null, .null, _ | .arr _, .arr _, _ => exact .inr ⟨rfl, rfl⟩
    | .bool a, .bool b, _ | .int a, .int b, _ | .float a, .float b, _ | .str a, .str b, _
    | .obj a, .obj b, _ => exact .inl ⟨_, _, rfl, rfl, rfl, rfl⟩

theorem ofArgs_alike_iff {as bs : List Value} (h : Value.agreesItems as bs = true) :
    ((ofArgs as).agrees (ofArgs bs) = true ∧ (ofArgs as).hashed = (ofArgs bs).hashed) ↔
      Value.zerosAlikeItems as bs = true := by
  obtain ⟨a, b, rfl, rfl, has, hbs⟩ | ⟨has, hbs⟩ := ofArgs_pair h
  · have hab : (plain a).agrees (plain b) = true := (Bool.and_eq_true_iff.1 h).1
    rw [has, hbs, hashed_eq_iff hab]
    simp [hab, zerosAlike, Value.zerosAlikeItems]
  · rw [has, hbs, ← paramsHashed_eq_iff h]
    constructor
    · rintro ⟨hagrees, -⟩
      exact of_decide_eq_true (Bool.and_eq_true_iff.1 hagrees).1
    · intro hp
      exact ⟨Bool.and_eq_true_iff.2 ⟨decide_eq_true hp, h⟩, congrArg (_ :: ·) hp⟩

end Key

/-- Arguments that agree have keys that agree and are hashed alike exactly if zeros in the same
    places have the same sign. Keys that agree are hashed alike under the same condition, and then
    what is stored under the one is found under the other. -/
theorem keys_hashed_alike (as bs : List Value) (k l : Key) :
    (Value.agreesItems as bs = true →
      (((Key.ofArgs as).agrees (Key.ofArgs bs) = true ∧
          (Key.ofArgs as).hashed = (Key.ofArgs bs).hashed) ↔
        Value.zerosAlikeItems as bs = true)) ∧
      (k.agrees l = true → (k.hashed = l.hashed ↔ k.zerosAlike l = true) ∧
        (k.zerosAlike l = true → ∀ (es : Entries) (v : Value), (es.put k v).get? l = some v)) := by
  refine ⟨fun h => Key.ofArgs_alike_iff h, fun h => ⟨Key.hashed_eq_iff h, fun hz => ?_⟩⟩
  exact Key.get?_put_of_hashed h ((Key.hashed_eq_iff h).2 hz)

theorem keys_hashed_alike_zero :
    Value.agreesItems [.float (-0.0), .null] [.float (-0.0), .null] = true ∧
      (Key.ofArgs [.float (-0.0), .null]).agrees (Key.ofArgs [.float (-0.0), .null]) = true ∧
        ∀ v, (Entries.put [] (.plain (.float (-0.0))) v).get? (.plain (.float (-0.0))) = some v := by
  have hargs : Value.agreesItems [.float (-0.0), .null] [.float (-0.0), .null] = true := rfl
  have hkey : (Key.plain (.float (-0.0))).agrees (.plain (.float (-0.0))) = true := rfl
  obtain ⟨halike, hfound⟩ := keys_hashed_alike _ _ _ _
  exact ⟨hargs, ((halike hargs).2 rfl).1, (hfound hkey).2 rfl []⟩

/-- Two zeros of different signs: as arguments among others they give keys that do not agree, and
    as keys they agree, but what is stored under the one is not found under the other. -/
theorem keys_hashed_apart :
    Value.agreesItems [.float 0.0, .null] [.float (-0.0), .null] = true ∧
      (Key.ofArgs [.float 0.0, .null]).agrees (Key.ofArgs [.float (-0.0), .null]) = false ∧
      (Key.plain (.float 0.0)).agrees (.plain (.float (-0.0))) = true ∧
      (Key.plain (.float 0.0)).hashed ≠ (Key.plain (.float (-0.0))).hashed ∧
      (Entries.put [] (.plain (.float 0.0)) .null).get? (.plain (.float (-0.0))) = none :=
  ⟨rfl, rfl, rfl, by decide, rfl⟩

end CachedCalls
