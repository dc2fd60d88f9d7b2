import CachedCalls.Key

set_option autoImplicit false

namespace CachedCalls

abbrev Entries := List (Key × Value)

namespace Entries

def get? (es : Entries) (k : Key) : Option Value :=
  (List.find? (fun e => decide (e.1 = k)) es).map (·.2)

def erase (es : Entries) (k : Key) : Entries := List.filter (fun e => decide (e.1 ≠ k)) es

def put (es : Entries) (k : Key) (v : Value) : Entries := (k, v) :: es.erase k

theorem get?_nil (k : Key) : get? [] k = none := rfl

theorem get?_cons (e : Key × Value) (es : Entries) (k : Key) :
    get? (e :: es) k = if e.1 = k then some e.2 else get? es k := by
  unfold get?
  by_cases h : e.1 = k <;> simp [h]

theorem get?_erase (es : Entries) (k l : Key) :
    (es.erase k).get? l = if l = k then none else es.get? l := by
  induction es with
  | nil => simp [erase, get?]
  | cons e es ih =>
    have step : erase (e :: es) k = if e.1 = k then erase es k else e :: erase es k := by
      by_cases h : e.1 = k <;> simp [erase, h]
    rw [step]
    by_cases h : e.1 = k
    · rw [if_pos h, ih, get?_cons]
      by_cases hl : l = k
      · simp [hl]
      · have : ¬ e.1 = l := fun he => hl (he.symm.trans h)
        simp [hl, this]
    · rw [if_neg h, get?_cons, get?_cons, ih]
      by_cases he : e.1 = l
      · have : ¬ l = k := fun hl => h (he.trans hl)
        simp [he, this]
      · simp [he]

theorem get?_put (es : Entries) (k l : Key) (v : Value) :
    (es.put k v).get? l = if l = k then some v else es.get? l := by
  unfold put
  rw [get?_cons, get?_erase]
  by_cases h : l = k
  · simp [h]
  · have : ¬ k = l := fun e => h e.symm
    simp [h, this]

end Entries

end CachedCalls
