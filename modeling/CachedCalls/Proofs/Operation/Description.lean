import CachedCalls.Operation.Basic

set_option autoImplicit false

namespace CachedCalls

namespace Operation

def body (o : Operation) : String :=
  "[" ++ o.name ++ "] caches=[" ++ ", ".intercalate o.cacheNames ++ "]" ++
    attributeText "key" o.key ++ attributeText "keyGenerator" o.keyGenerator ++
    attributeText "cacheManager" o.manager ++ attributeText "cacheResolver" o.resolver ++
    attributeText "condition" o.condition

theorem description_eq (o : Operation) :
    o.description = o.kind.label ++ o.body ++ o.kind.text := by
  simp only [description, body, String.append_assoc]

theorem description_head (o : Operation) :
    o.description.toList.head? = o.kind.label.toList.head? := by
  rw [description_eq]
  cases o.kind <;> simp [OperationKind.label]

theorem description_mark (o : Operation) (u : Option String) (b : Bool)
    (hk : o.kind = .cacheable u b) :
    o.description.toList.reverse[2]? = some (if b then 'u' else 's') := by
  rw [description_eq, hk]
  cases b <;> simp [OperationKind.text, boolText]

theorem isSync_of_description {a b : Operation} (h : a.description = b.description) :
    a.kind.isSync = b.kind.isSync := by
  have hhead : a.kind.label.toList.head? = b.kind.label.toList.head? := by
    rw [← description_head, ← description_head, h]
  have hmark : a.description.toList.reverse[2]? = b.description.toList.reverse[2]? := by rw [h]
  cases ha : a.kind with
  | cacheable u s =>
    cases hb : b.kind with
    | cacheable u' s' =>
      rw [description_mark a u s ha, description_mark b u' s' hb] at hmark
      cases s <;> cases s' <;> simp_all [OperationKind.isSync]
    | _ => simp [ha, hb, OperationKind.label] at hhead
  | _ =>
    cases hb : b.kind with
    | cacheable u' s' => simp [ha, hb, OperationKind.label] at hhead
    | _ => rfl

end Operation

/-- Two reads of one description: what the second has as its veto is quoted in the condition of the
    first. -/
def quotedVeto (sync : Bool) : Operation :=
  ⟨"", ["prices"], none, none, none, none, some "#item == 'tea'' | unless=''x'.isEmpty() and 'y'",
    .cacheable none sync⟩

def vetoedRead (sync : Bool) : Operation :=
  ⟨"", ["prices"], none, none, none, none, some "#item == 'tea'",
    .cacheable (some "'x'.isEmpty() and 'y'' | unless='") sync⟩

end CachedCalls
