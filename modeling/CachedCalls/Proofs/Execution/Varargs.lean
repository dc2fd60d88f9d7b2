import CachedCalls.Proofs.Execution.DefaultKey
import CachedCalls.Proofs.Execution.Protocol
import CachedCalls.Proofs.Expr.Variables

set_option autoImplicit false

namespace CachedCalls

variable {σ : Type} (sv : Services σ)

theorem bind_args {call : Call σ} {args : List Value} {o : Operation} {b : Bound} {s s' : σ}
    (hb : sv.bind call args o s = .ok b s') : b.args = args := by
  obtain ⟨d, s₁, -, hb⟩ := bind_ok.1 hb
  obtain ⟨cs, s₂, -, hb⟩ := bind_ok.1 hb
  split at hb
  · cases hb
  · obtain ⟨rfl, -⟩ := pure_ok.1 hb
    rfl

theorem bindAll_args {call : Call σ} {args : List Value} {os : List Operation} {bs : List Bound}
    {s s' : σ} (hb : sv.bindAll call args os s = .ok bs s') : ∀ b ∈ bs, b.args = args := by
  intro b hm
  obtain ⟨o, -, t, t', hbound⟩ := bindAll_mem sv hb b hm
  exact bind_args sv hbound

theorem params_length_of_signature {m n : Method} (h : m.signature = n.signature) :
    m.params.length = n.params.length := by
  simpa [Method.signature] using congrArg (·.paramTypes.length) h

namespace Scope

section Rest

variable {s : Scope} {cs vs : List Value} (hargs : s.args = cs ++ vs)
  (hlength : cs.length + 1 = s.implementation.params.length)

include hargs hlength

theorem argument_before {i : Nat} {v : Value} (hv : cs[i]? = some v) : s.argument i = v := by
  obtain ⟨hi, -⟩ := List.getElem?_eq_some_iff.1 hv
  rw [argument_item (.inr (by omega)), hargs, List.getElem?_append_left hi, hv, Option.getD_some]

theorem argument_few (h : vs.length ≤ 1) : s.argument cs.length = vs.head?.getD .null := by
  have hfew : s.args.length ≤ s.implementation.params.length := by
    rw [hargs, List.length_append]
    omega
  rw [argument_item (.inl hfew), hargs, List.getElem?_append_right (Nat.le_refl _), Nat.sub_self,
    List.head?_eq_getElem?]

theorem argument_many (h : 2 ≤ vs.length) : s.argument cs.length = .arr vs := by
  have hmore : s.implementation.params.length < s.args.length := by
    rw [hargs, List.length_append]
    omega
  rw [argument_rest hmore hlength, hargs, List.drop_left]

end Rest

end Scope

namespace Bound

open Scope

/-- The scope of an operation bound to a call of a variadic method, whose arguments are `cs` and a
    last list `vs`: `a` or `p` with the number of an item of `cs` is that item, and with the next
    number it is `vs` if this has two items or more, its only item if it has one, and null if it has
    none. -/
theorem scope_varargs {call : Call σ} {os : List Operation} {bs : List Bound} {w w' : σ}
    (hbs : sv.bindAll call (spread call.method call.args) os w = .ok bs w') {b : Bound} (hb : b ∈ bs)
    (hsame : b.metadata.implementation.signature = call.method.signature)
    (hvariadic : call.method.varargs = true) {cs vs : List Value}
    (hargs : call.args = cs ++ [.arr vs]) (hlength : call.args.length = call.method.params.length)
    (hword : call.method.params.length ≤ Number.wordCount) (r : ResultState) {c : String}
    (hc : c = "a" ∨ c = "p") :
    (∀ (i : Nat) v, cs[i]? = some v → Expr.eval (b.scope r) (.var (c ++ toString i)) = .ok v) ∧
      (2 ≤ vs.length →
        Expr.eval (b.scope r) (.var (c ++ toString cs.length)) = .ok (.arr vs)) ∧
      (vs.length ≤ 1 →
        Expr.eval (b.scope r) (.var (c ++ toString cs.length)) = .ok (vs.head?.getD .null)) := by
  have hspread : (b.scope r).args = cs ++ vs := by
    rw [← spread_append hvariadic, ← hargs]
    exact bindAll_args sv hbs b hb
  have hparams : cs.length + 1 = (b.scope r).implementation.params.length := by
    have hcount : cs.length + 1 = call.method.params.length := by
      rw [← hlength, hargs, List.length_append, List.length_singleton]
    exact hcount.trans (params_length_of_signature hsame).symm
  have hvalue (i : Nat) (hi : i ≤ cs.length) :
      Expr.eval (b.scope r) (.var (c ++ toString i)) = .ok ((b.scope r).argument i) := by
    have hcount : (b.scope r).implementation.params.length = call.method.params.length :=
      params_length_of_signature hsame
    exact Expr.eval_positional (positional_numbered hc i) (by omega) (by omega)
  refine ⟨fun i v hv => ?_, fun hmany => ?_, fun hfew => ?_⟩
  · obtain ⟨hi, -⟩ := List.getElem?_eq_some_iff.1 hv
    rw [hvalue i (Nat.le_of_lt hi), argument_before hspread hparams hv]
  · rw [hvalue _ (Nat.le_refl _), argument_many hspread hparams hmany]
  · rw [hvalue _ (Nat.le_refl _), argument_few hspread hparams hfew]

def tagging : Method :=
  ⟨"Shop", "tag", [⟨"item", "String"⟩, ⟨"tags", "String"⟩], .anyone, true, false⟩

def tagCall (tags : List Value) : Call World where
  target :=
    ⟨.ofClass "Shop" none [] [{ name := "tag", params := tagging.params, varargs := true }], .null⟩
  method := tagging
  args := [.str "tea", .arr tags]
  invoke w := .ok .null w

theorem scope_varargs_two : ∃ b w,
    World.services.bindAll (tagCall [.str "green", .str "loose"])
        [.str "tea", .str "green", .str "loose"] [readPrices] World.plain = .ok [b] w ∧
      b.metadata.implementation.signature = tagging.signature ∧
      Expr.eval (b.scope .unset) (.var "a0") = .ok (.str "tea") ∧
      Expr.eval (b.scope .unset) (.var "p1") = .ok (.arr [.str "green", .str "loose"]) := by
  obtain ⟨b, w, hbs, hsame⟩ : ∃ b w, World.services.bindAll
      (tagCall [.str "green", .str "loose"]) [.str "tea", .str "green", .str "loose"] [readPrices]
        World.plain = .ok [b] w ∧ b.metadata.implementation.signature = tagging.signature :=
    ⟨_, _, rfl, rfl⟩
  have hargs : (tagCall [.str "green", .str "loose"]).args =
      [.str "tea"] ++ [.arr [.str "green", .str "loose"]] := rfl
  have hitem := scope_varargs World.services hbs List.mem_cons_self hsame rfl hargs rfl (by decide)
    .unset (.inl rfl)
  have htags := scope_varargs World.services hbs List.mem_cons_self hsame rfl hargs rfl (by decide)
    .unset (.inr rfl)
  exact ⟨b, w, hbs, hsame, hitem.1 0 _ rfl, htags.2.1 (by decide)⟩

/-- Where the list has one tag, neither `a1` nor `p1` is the list. -/
theorem scope_varargs_one : ∃ b w,
    World.services.bindAll (tagCall [.str "green"]) (spread tagging [.str "tea", .arr [.str "green"]])
        [readPrices] World.plain = .ok [b] w ∧
      tagging.varargs = true ∧ b.metadata.implementation.signature = tagging.signature ∧
      Expr.eval (b.scope .unset) (.var "a1") ≠ .ok (.arr [.str "green"]) ∧
      Expr.eval (b.scope .unset) (.var "p1") ≠ .ok (.arr [.str "green"]) := by
  have hother : Value.str "green" ≠ .arr [.str "green"] := by
    intro h
    cases h
  exact ⟨_, _, rfl, rfl, rfl, fun h => hother (Except.ok.inj h), fun h => hother (Except.ok.inj h)⟩

end Bound

end CachedCalls
