import CachedCalls.Execution.Bound

set_option autoImplicit false

namespace CachedCalls

structure Eviction where
  bound : Bound
  allEntries : Bool
  before : Bool

inductive Plan where
  | single (b : Bound) (c : CacheRef)
  | phased (reads puts : List Bound) (evictions : List Eviction)

namespace Bound

def isRead (b : Bound) : Bool :=
  match b.operation.kind with
  | .cacheable _ _ => true
  | _ => false

def isPut (b : Bound) : Bool :=
  match b.operation.kind with
  | .put _ => true
  | _ => false

def eviction? (b : Bound) : Option Eviction :=
  match b.operation.kind with
  | .evict all before => some ⟨b, all, before⟩
  | _ => none

end Bound

namespace Plan

def soleCache (b : Bound) : Except ConfigFault CacheRef :=
  match h : b.caches with
  | [] => absurd h b.caches_ne
  | [c] =>
    if b.operation.kind.veto.isSome then .error (.syncUnless b.operation.description) else .ok c
  | _ :: _ :: _ => .error (.syncManyCaches b.operation.description)

/-- The text `method` names the method in messages. -/
def ofBounds (method : String) (bs : List Bound) : Except ConfigFault Plan :=
  let reads := bs.filter (·.isRead)
  let puts := bs.filter (·.isPut)
  let evictions := bs.filterMap (·.eviction?)
  if reads.any (·.operation.kind.isSync) then
    if puts.isEmpty && evictions.isEmpty then
      match reads with
      | [b] => (soleCache b).map (single b)
      | _ => .error (.syncTwice method)
    else .error (.syncCombined method)
  else .ok (phased reads puts evictions)

end Plan

end CachedCalls
