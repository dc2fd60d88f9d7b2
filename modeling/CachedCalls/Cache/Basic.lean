import CachedCalls.Cache.Backend

set_option autoImplicit false

namespace CachedCalls

/-- Bounded caches keep their entries in stores of the type `σ`. -/
inductive Cache (σ : Type := Entries) where
  | map (c : MapCache)
  | bounded (c : BoundedCache σ)
  | none_ (c : NoCache)
  | minimal (c : MinimalCache)

inductive CacheKind where
  | map
  | bounded (bounds : BoundedSettings)
  | none_
  | minimal
  deriving DecidableEq

variable {σ : Type} [BoundedStore σ]

/-- A cache without entries, unless the library refuses its bounds. -/
def CacheKind.fresh (name : String) (allowNull : Bool) : CacheKind → Option (Cache σ)
  | map => some (.map ⟨name, allowNull, [], {}⟩)
  | bounded b => (BoundedCache.ofSettings name b allowNull).map .bounded
  | none_ => some (.none_ ⟨name⟩)
  | minimal => some (.minimal ⟨⟨name, allowNull, [], {}⟩⟩)

namespace Cache

instance : Backend (Cache σ) where
  provider
    | map c => Backend.provider c
    | bounded c => Backend.provider c
    | none_ c => Backend.provider c
    | minimal c => Backend.provider c
  name
    | map c => Backend.name c
    | bounded c => Backend.name c
    | none_ c => Backend.name c
    | minimal c => Backend.name c
  get
    | map c => Backend.get c
    | bounded c => Backend.get c
    | none_ c => Backend.get c
    | minimal c => Backend.get c
  begin
    | map c, k => (Backend.begin c k).map id map
    | bounded c, k => (Backend.begin c k).map id bounded
    | none_ c, k => (Backend.begin c k).map id none_
    | minimal c, k => (Backend.begin c k).map id minimal
  finish
    | map c, k, i, l => (Backend.finish c k i l).map id map
    | bounded c, k, i, l => (Backend.finish c k i l).map id bounded
    | none_ c, k, i, l => (Backend.finish c k i l).map id none_
    | minimal c, k, i, l => (Backend.finish c k i l).map id minimal
  put
    | map c, k, v => (Backend.put c k v).map map
    | bounded c, k, v => (Backend.put c k v).map bounded
    | none_ c, k, v => (Backend.put c k v).map none_
    | minimal c, k, v => (Backend.put c k v).map minimal
  evict
    | map c, k => map (Backend.evict c k)
    | bounded c, k => bounded (Backend.evict c k)
    | none_ c, k => none_ (Backend.evict c k)
    | minimal c, k => minimal (Backend.evict c k)
  clear
    | map c => map (Backend.clear c)
    | bounded c => bounded (Backend.clear c)
    | none_ c => none_ (Backend.clear c)
    | minimal c => minimal (Backend.clear c)
  map?
    | map c => Backend.map? c
    | bounded c => Backend.map? c
    | none_ c => Backend.map? c
    | minimal c => Backend.map? c
  putIfAbsent
    | map c, k, v => (Backend.putIfAbsent c k v).map (Prod.map id map)
    | bounded c, k, v => (Backend.putIfAbsent c k v).map (Prod.map id bounded)
    | none_ c, k, v => (Backend.putIfAbsent c k v).map (Prod.map id none_)
    | minimal c, k, v => (Backend.putIfAbsent c k v).map (Prod.map id minimal)
  evictIfPresent
    | map c, k => (Backend.evictIfPresent c k).map id map
    | bounded c, k => (Backend.evictIfPresent c k).map id bounded
    | none_ c, k => (Backend.evictIfPresent c k).map id none_
    | minimal c, k => (Backend.evictIfPresent c k).map id minimal
  invalidate
    | map c => (Backend.invalidate c).map id map
    | bounded c => (Backend.invalidate c).map id bounded
    | none_ c => (Backend.invalidate c).map id none_
    | minimal c => (Backend.invalidate c).map id minimal

end Cache

end CachedCalls
