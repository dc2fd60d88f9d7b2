import CachedCalls.Expr.Compiled

set_option autoImplicit false

namespace CachedCalls

def Scope.withResult (s : Scope) (r : ResultState) : Scope := { s with result := r }

namespace Expr

variable {α β : Type}

/-- The end `x` asks for the result, or it is the end `y` as well. -/
def Foretells (x y : Except ExprError α) : Prop := (∃ n, x = .error (.notAvailable n)) ∨ x = y

namespace Foretells

theorem refl (x : Except ExprError α) : Foretells x x := .inr rfl

theorem bind {x y : Except ExprError α} {f g : α → Except ExprError β} (h : Foretells x y)
    (hf : ∀ a, Foretells (f a) (g a)) : Foretells (x >>= f) (y >>= g) := by
  obtain ⟨n, rfl⟩ | rfl := h
  · exact .inl ⟨n, rfl⟩
  · cases x with
    | error e => exact refl _
    | ok a => exact hf a

theorem eq_of_ok {x y : Except ExprError α} {a : α} (h : Foretells x y) (hx : x = .ok a) :
    y = .ok a := by
  obtain ⟨n, rfl⟩ | rfl := h
  · cases hx
  · exact hx

end Foretells

variable (s : Scope) (r : ResultState)

theorem lookup_foretells (n : String) :
    Foretells ((s.withResult .pending).lookup n) ((s.withResult r).lookup n) := by
  unfold Scope.lookup
  by_cases h : n = Scope.resultName
  · rw [if_pos h, if_pos h]
    exact .inl ⟨n, rfl⟩
  · rw [if_neg h, if_neg h]
    exact Foretells.refl _

mutual

theorem eval_foretells (e : Expr) :
    Foretells (eval (s.withResult .pending) e) (eval (s.withResult r) e) := by
  match e with
  | .literal v => exact Foretells.refl _
  | .var n => exact lookup_foretells s r n
  | .name n => exact Foretells.refl _
  | .property t n safe =>
    simp only [eval]
    exact (eval_foretells t).bind fun v => Foretells.refl _
  | .call t n as safe =>
    simp only [eval]
    refine (eval_foretells t).bind fun v => ?_
    split
    · exact Foretells.refl _
    · exact (evalAll_foretells as).bind fun vs => Foretells.refl _
  | .index t i =>
    simp only [eval]
    exact (eval_foretells t).bind fun v => (eval_foretells i).bind fun w => Foretells.refl _
  | .list es =>
    simp only [eval]
    exact (evalAll_foretells es).bind fun vs => Foretells.refl _
  | .unary op e =>
    simp only [eval]
    exact (eval_foretells e).bind fun v => Foretells.refl _
  | .binary .and a b =>
    simp only [eval]
    refine (eval_foretells a).bind fun v => (Foretells.refl _).bind fun p => ?_
    split
    · exact (eval_foretells b).bind fun w => Foretells.refl _
    · exact Foretells.refl _
  | .binary .or a b =>
    simp only [eval]
    refine (eval_foretells a).bind fun v => (Foretells.refl _).bind fun p => ?_
    split
    · exact Foretells.refl _
    · exact (eval_foretells b).bind fun w => Foretells.refl _
  | .binary .eq a b | .binary .ne a b | .binary .lt a b | .binary .le a b | .binary .gt a b
  | .binary .ge a b | .binary .add a b | .binary .sub a b | .binary .mul a b | .binary .div a b
  | .binary .rem a b =>
    simp only [eval]
    exact (eval_foretells a).bind fun v => (eval_foretells b).bind fun w => Foretells.refl _
  | .ternary c y n =>
    simp only [eval]
    refine (eval_foretells c).bind fun v => (Foretells.refl _).bind fun p => ?_
    split
    · exact eval_foretells y
    · exact eval_foretells n
  | .elvis v f =>
    simp only [eval]
    refine (eval_foretells v).bind fun w => ?_
    split
    · exact eval_foretells f
    · exact Foretells.refl _

theorem evalAll_foretells (es : List Expr) :
    Foretells (evalAll (s.withResult .pending) es) (evalAll (s.withResult r) es) := by
  match es with
  | [] => exact Foretells.refl _
  | e :: es =>
    simp only [evalAll]
    exact (eval_foretells e).bind fun v => (evalAll_foretells es).bind fun vs => Foretells.refl _

end

theorem value_foretells (text : String) :
    Foretells (value text (s.withResult .pending)) (value text (s.withResult r)) :=
  (Foretells.refl (parse text)).bind (eval_foretells s r)

/-- A tree that comes to an end while the result is pending, without asking for it, comes to the
    same value or error when the result is unset and whatever the result is. -/
theorem eval_independent (e : Expr) (s : Scope)
    (h : ∀ n, eval (s.withResult .pending) e ≠ .error (.notAvailable n)) :
    eval (s.withResult .unset) e = eval (s.withResult .pending) e ∧
      ∀ v, eval (s.withResult (.available v)) e = eval (s.withResult .pending) e := by
  have hsame (r : ResultState) : eval (s.withResult r) e = eval (s.withResult .pending) e := by
    obtain ⟨n, hn⟩ | heq := eval_foretells s r e
    · exact absurd hn (h n)
    · exact heq.symm
  exact ⟨hsame .unset, fun v => hsame (.available v)⟩

def itemScope : Scope where
  method := ⟨"Shop", "price", [⟨"item", "String"⟩], .anyone, false, false⟩
  implementation := ⟨"Shop", "price", [⟨"item", "String"⟩], .anyone, false, false⟩
  target := ⟨.object, .null⟩
  args := [.str "tea"]
  caches := []
  result := .unset

def milkOnly : Expr :=
  .ternary (.binary .eq (.var "item") (.literal (.str "milk"))) (.var "result") (.name "discount")

theorem eval_independent_untaken :
    (∀ n, eval (itemScope.withResult .pending) milkOnly ≠ .error (.notAvailable n)) ∧
      eval (itemScope.withResult .unset) milkOnly = .error (.unknownProperty "discount") ∧
      ∀ v, eval (itemScope.withResult (.available v)) milkOnly = .error (.unknownProperty "discount") := by
  have hend : eval (itemScope.withResult .pending) milkOnly = .error (.unknownProperty "discount") := by
    rfl
  have hask : ∀ n, eval (itemScope.withResult .pending) milkOnly ≠ .error (.notAvailable n) := by
    intro n hn
    cases hend.symm.trans hn
  obtain ⟨hunset, havailable⟩ := eval_independent milkOnly itemScope hask
  exact ⟨hask, hunset.trans hend, fun v => (havailable v).trans hend⟩

end Expr

end CachedCalls
