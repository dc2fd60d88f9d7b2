import CachedCalls.Expr.Eval
import CachedCalls.Proofs.Number.Magnitude

set_option autoImplicit false

namespace CachedCalls

namespace Number

theorem isSigned_tdiv {a b : Int} (ha : isSigned a = true) (hb : b ≠ 0) :
    isSigned (a.tdiv b) = true ↔ ¬ (a = -0x8000000000000000 ∧ b = -1) := by
  rw [isSigned_iff] at ha ⊢
  by_cases hone : b.natAbs = 1
  · obtain rfl | rfl : b = 1 ∨ b = -1 := by omega
    · rw [Int.tdiv_one]
      omega
    · rw [Int.tdiv_neg, Int.tdiv_one]
      omega
  · have hhalf : a.natAbs / b.natAbs ≤ a.natAbs / 2 := Nat.div_le_div_left (by omega) (by decide)
    have habs : (a.tdiv b).natAbs = a.natAbs / b.natAbs := Int.natAbs_tdiv a b
    omega

theorem isSigned_tmod {a b : Int} (hb : isSigned b = true) (h0 : b ≠ 0) :
    isSigned (a.tmod b) = true := by
  rw [isSigned_iff] at hb ⊢
  have hlt : a.natAbs % b.natAbs < b.natAbs := Nat.mod_lt _ (by omega)
  have habs : (a.tmod b).natAbs = a.natAbs % b.natAbs := Int.natAbs_tmod a b
  omega

end Number

namespace Expr

open Number

/-- The operation on whole numbers that an arithmetic operator stands for. Quotients are cut toward
    zero, and remainders have the sign of the dividend. -/
def BinaryOp.whole? : BinaryOp → Option (Int → Int → Int)
  | add => some (· + ·)
  | sub => some (· - ·)
  | mul => some (· * ·)
  | div => some Int.tdiv
  | rem => some Int.tmod
  | _ => none

/-- The number itself where a signed word holds it, and where none does a finite float. -/
def Settles (n : Int) (x : Float) (r : Except ExprError Value) : Prop :=
  if isSigned n then r = .ok (.int n) else x.isFinite = true ∧ r = .ok (.float x)

theorem num?_signed {n : Int} (h : isSigned n = true) : num? (.int n) = .ok (.int n) := by
  simp only [num?, signedOf?, h, if_true]

section Operators

variable {op : BinaryOp} {f : Int → Int → Int} (hop : op.whole? = some f)

include hop

theorem eval_operands (s : Scope) (l r : Expr) : eval s (.binary op l r) =
    (eval s l).bind fun a => (eval s r).bind fun b => applyBinary op a b := by
  cases op <;> first | rfl | cases hop

variable {a b : Int} (ha : isSigned a = true) (hb : isSigned b = true)

include ha hb

theorem applyBinary_whole : applyBinary op (.int a) (.int b) = arith op (.int a) (.int b) := by
  have hwhole : applyBinary op (.int a) (.int b) =
      (num? (.int a)).bind fun m => (num? (.int b)).bind fun n => arith op m n := by
    cases op <;> first | rfl | cases hop
  rw [hwhole, num?_signed ha, num?_signed hb]
  rfl

theorem eval_whole {s : Scope} {l r : Expr} (hl : eval s l = .ok (.int a))
    (hr : eval s r = .ok (.int b)) : eval s (.binary op l r) = arith op (.int a) (.int b) := by
  rw [eval_operands hop, hl, hr]
  exact applyBinary_whole hop ha hb

variable (h0 : op.divides = true → b ≠ 0)

include h0

theorem floatArith_past (hpast : isSigned (f a b) = false) :
    (floatResult op (Float.ofInt a) (Float.ofInt b)).isFinite = true ∧
      floatArith op (Float.ofInt a) (Float.ofInt b) =
        finite (floatResult op (Float.ofInt a) (Float.ofInt b)) := by
  have hx := ofInt_within ha
  have hy := ofInt_within hb
  cases op with
  | add => exact ⟨isFinite_of_within (add_within (by decide) (by decide) hx hy), rfl⟩
  | sub => exact ⟨isFinite_of_within (sub_within (by decide) (by decide) hx hy), rfl⟩
  | mul => exact ⟨isFinite_of_within (mul_within (by decide) (by decide) hx hy), rfl⟩
  | div =>
    cases hop
    have hleast := mt (isSigned_tdiv ha (h0 rfl)).2 (ne_true_of_eq_false hpast)
    obtain ⟨rfl, rfl⟩ := Decidable.not_not.1 hleast
    have hzero : (Float.ofInt (-1) == 0.0) = false := by decide
    exact ⟨by decide, by rw [floatArith, hzero, Bool.and_false, if_neg Bool.false_ne_true]⟩
  | rem =>
    cases hop
    rw [isSigned_tmod hb (h0 rfl)] at hpast
    cases hpast
  | _ => cases hop

theorem wholeResult?_eq (hrest : ¬ (op = .rem ∧ a = -0x8000000000000000 ∧ b = -1)) :
    wholeResult? op a b = signed? (f a b) := by
  cases op with
  | add | sub | mul | div =>
    cases hop
    rfl
  | rem =>
    cases hop
    have hquot : isSigned (a.tdiv b) = true :=
      (isSigned_tdiv ha (h0 rfl)).2 fun h => hrest ⟨rfl, h⟩
    simp only [wholeResult?, signed?, hquot, isSigned_tmod hb (h0 rfl), if_true, Option.map_some]
  | _ => cases hop

theorem arith_settles (hrest : ¬ (op = .rem ∧ a = -0x8000000000000000 ∧ b = -1)) :
    Settles (f a b) (floatResult op (Float.ofInt a) (Float.ofInt b)) (arith op (.int a) (.int b)) := by
  have hdiv : ¬ (op.divides && b == 0) = true := by
    intro h
    obtain ⟨hdivides, hzero⟩ := Bool.and_eq_true_iff.1 h
    exact h0 hdivides (eq_of_beq hzero)
  simp only [Settles, arith, if_neg hdiv, wholeResult?_eq hop ha hb h0 hrest, signed?]
  cases hfits : isSigned (f a b) with
  | true => rfl
  | false =>
    obtain ⟨hfin, hpast⟩ := floatArith_past hop ha hb h0 hfits
    exact ⟨hfin, hpast.trans (if_pos hfin)⟩

end Operators

theorem negate_settles {a : Int} (ha : isSigned a = true) :
    Settles (-a) (-Float.ofInt a) (.ok (negate (.int a))) := by
  simp only [Settles, negate, signed?]
  cases isSigned (-a) with
  | true => rfl
  | false => exact ⟨isFinite_of_within (neg_within (by decide) (by decide) (ofInt_within ha)), rfl⟩

theorem arith_least : arith .rem (.int (-0x8000000000000000)) (.int (-1)) = .ok (.float (-0.0)) := by
  rfl

/-- Of operands that are signed words, the arithmetic operators give the exact result where a signed
    word holds it and a finite float where none does; they fail on a division by zero alone. The
    least word leaves a float as its remainder by -1. -/
theorem eval_arithmetic {s : Scope} {l r : Expr} {a b : Int} (hl : eval s l = .ok (.int a))
    (hr : eval s r = .ok (.int b)) (ha : isSigned a = true) (hb : isSigned b = true) :
    (∀ op f, op.whole? = some f →
      (op.divides = true → b = 0 → eval s (.binary op l r) = .error .divisionByZero) ∧
        ((op.divides = true → b ≠ 0) → ¬ (op = .rem ∧ a = -0x8000000000000000 ∧ b = -1) →
          Settles (f a b) (floatResult op (Float.ofInt a) (Float.ofInt b))
            (eval s (.binary op l r)))) ∧
      (a = -0x8000000000000000 → b = -1 → eval s (.binary .rem l r) = .ok (.float (-0.0))) ∧
      Settles (-a) (-Float.ofInt a) (eval s (.unary .negate l)) := by
  refine ⟨fun op f hop => ⟨?_, ?_⟩, ?_, ?_⟩
  · intro hdivides hzero
    rw [eval_whole hop ha hb hl hr, arith, hdivides, hzero]
    rfl
  · intro h0 hrest
    rw [eval_whole hop ha hb hl hr]
    exact arith_settles hop ha hb h0 hrest
  · rintro rfl rfl
    exact (eval_whole rfl ha hb hl hr).trans arith_least
  · have hunary : eval s (.unary .negate l) = .ok (negate (.int a)) := by
      have hop : eval s (.unary .negate l) = (eval s l).bind fun v => (num? v).map negate := rfl
      rw [hop, hl]
      exact congrArg (Except.map negate) (num?_signed ha)
    rw [hunary]
    exact negate_settles ha

def splitScope (total parts : Int) : Scope where
  method := ⟨"Shop", "split", [⟨"total", "i64"⟩, ⟨"parts", "i64"⟩], .anyone, false, false⟩
  implementation := ⟨"Shop", "split", [⟨"total", "i64"⟩, ⟨"parts", "i64"⟩], .anyone, false, false⟩
  target := ⟨.object, .null⟩
  args := [.int total, .int parts]
  caches := []
  result := .unset

theorem eval_arithmetic_quotient :
    eval (splitScope (-0x8000000000000000) (-1)) (.var "total") = .ok (.int (-0x8000000000000000)) ∧
      eval (splitScope (-0x8000000000000000) (-1)) (.var "parts") = .ok (.int (-1)) ∧
      eval (splitScope (-0x8000000000000000) (-1)) (.binary .div (.var "total") (.var "parts")) =
        .ok (.float 9223372036854775808.0) := by
  have htotal : eval (splitScope (-0x8000000000000000) (-1)) (.var "total") =
      .ok (.int (-0x8000000000000000)) := rfl
  have hparts : eval (splitScope (-0x8000000000000000) (-1)) (.var "parts") = .ok (.int (-1)) := rfl
  obtain ⟨hbinary, -, -⟩ := eval_arithmetic htotal hparts (by decide) (by decide)
  have hquot := ((hbinary .div _ rfl).2 (by decide) (by decide)).2
  have hfloat : Float.ofInt (-0x8000000000000000) / Float.ofInt (-1) = 9223372036854775808.0 := by
    decide +kernel
  exact ⟨htotal, hparts, hfloat ▸ hquot⟩

/-- The one remainder that is not exact, although a word holds it. -/
theorem eval_remainder_inexact :
    eval (splitScope (-0x8000000000000000) (-1)) (.var "total") = .ok (.int (-0x8000000000000000)) ∧
      eval (splitScope (-0x8000000000000000) (-1)) (.var "parts") = .ok (.int (-1)) ∧
      isSigned (Int.tmod (-0x8000000000000000) (-1)) = true ∧
      eval (splitScope (-0x8000000000000000) (-1)) (.binary .rem (.var "total") (.var "parts")) ≠
        .ok (.int (Int.tmod (-0x8000000000000000) (-1))) := by
  have htotal : eval (splitScope (-0x8000000000000000) (-1)) (.var "total") =
      .ok (.int (-0x8000000000000000)) := rfl
  have hparts : eval (splitScope (-0x8000000000000000) (-1)) (.var "parts") = .ok (.int (-1)) := rfl
  have hrem : eval (splitScope (-0x8000000000000000) (-1))
      (.binary .rem (.var "total") (.var "parts")) = .ok (.float (-0.0)) :=
    (eval_whole rfl (by decide) (by decide) htotal hparts).trans arith_least
  refine ⟨htotal, hparts, rfl, ?_⟩
  rw [hrem]
  intro h
  cases h

end Expr

end CachedCalls
