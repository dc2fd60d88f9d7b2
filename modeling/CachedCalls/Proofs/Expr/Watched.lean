set_option autoImplicit false

namespace CachedCalls

/-- A run gives a result or ends with a fault; one that is stopped has neither. -/
abbrev Watched (ε : Type) := Except (Option ε)

namespace Watched

variable {ε ε' α β : Type}

def stop : Watched ε α := .error none

def fault (e : ε) : Watched ε α := .error (some e)

/-- The run that comes to `x` and is never stopped. -/
def free (x : Except ε α) : Watched ε α := x.mapError some

def retell (g : ε → ε') (x : Watched ε α) : Watched ε' α := x.mapError (Option.map g)

def sub (a b : Nat) : Watched ε Nat := if b ≤ a then .ok (a - b) else stop

def item (xs : List α) (i : Nat) : Watched ε α :=
  match xs[i]? with
  | some x => .ok x
  | none => stop

def slice (xs : List α) (i j : Nat) : Watched ε (List α) :=
  if i ≤ j ∧ j ≤ xs.length then .ok ((xs.take j).drop i) else stop

def require (p : Prop) [Decidable p] : Watched ε Unit := if p then .ok () else stop

theorem ok_bind (a : α) (f : α → Watched ε β) : (.ok a : Watched ε α) >>= f = f a := rfl

theorem free_bind (x : Except ε α) (f : α → Except ε β) :
    free (x >>= f) = free x >>= fun a => free (f a) := by
  cases x <;> rfl

theorem retell_free (g : ε → ε') (x : Except ε α) : retell g (free x) = free (x.mapError g) := by
  cases x <;> rfl

theorem sub_of_le {a b : Nat} (h : b ≤ a) : (sub a b : Watched ε Nat) = .ok (a - b) := if_pos h

theorem item_of_drop {xs ys : List α} {i : Nat} {x : α} (h : xs.drop i = x :: ys) :
    (item xs i : Watched ε α) = .ok x := by
  rw [item, ← List.head?_drop, h]
  rfl

theorem slice_of_le {xs : List α} {i j : Nat} (hij : i ≤ j) (hj : j ≤ xs.length) :
    (slice xs i j : Watched ε (List α)) = .ok ((xs.drop i).take (j - i)) := by
  rw [slice, if_pos ⟨hij, hj⟩, List.drop_take]

theorem require_of {p : Prop} [Decidable p] (h : p) : (require p : Watched ε Unit) = .ok () :=
  if_pos h

end Watched

end CachedCalls
