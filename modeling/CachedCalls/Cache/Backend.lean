import CachedCalls.Cache.Bounded

set_option autoImplicit false

namespace CachedCalls

/-- Around a load stand `begin` and `finish`; it may itself use the cache. `map?` is the map
    behind a cache that lets it be seen. -/
class Backend (γ : Type) where
  provider : γ → String
  name : γ → String
  get : γ → Key → Option Value
  begin : γ → Key → Begun × γ
  finish : γ → Key → Nat → Except String Value → Outcome × γ
  put : γ → Key → Value → Except CacheError γ
  evict : γ → Key → γ
  clear : γ → γ
  map? : γ → Option MapCache := fun _ => none
  putIfAbsent : γ → Key → Value → Except CacheError (Option Value × γ) := fun c k v =>
    match get c k with
    | some w => .ok (some w, c)
    | none => (put c k v).map fun c => (none, c)
  evictIfPresent : γ → Key → Bool × γ := fun c k => (false, evict c k)
  invalidate : γ → Bool × γ := fun c => (false, clear c)

instance : Backend MapCache where
  provider _ := "concurrent_map"
  name := MapCache.name
  get := MapCache.get
  begin := MapCache.begin
  finish := MapCache.finish
  put := MapCache.put
  evict := MapCache.evict
  clear := MapCache.clear
  map? := some
  putIfAbsent := MapCache.putIfAbsent
  evictIfPresent := MapCache.evictIfPresent
  invalidate := MapCache.invalidate

instance {σ : Type} [BoundedStore σ] : Backend (BoundedCache σ) where
  provider _ := "moka"
  name := BoundedCache.name
  get := BoundedCache.get
  begin := BoundedCache.begin
  finish c k _ := c.finish k
  put := BoundedCache.put
  evict := BoundedCache.evict
  clear := BoundedCache.clear
  putIfAbsent := BoundedCache.putIfAbsent
  evictIfPresent := BoundedCache.evictIfPresent
  invalidate := BoundedCache.invalidate

structure NoCache where
  name : String

instance : Backend NoCache where
  provider _ := "noop"
  name := NoCache.name
  get _ _ := none
  begin c _ := (.load 0, c)
  finish c k _ loaded := (loaded.mapError (.notLoaded k), c)
  put c _ _ := .ok c
  evict c _ := c
  clear c := c
  putIfAbsent c _ _ := .ok (none, c)

structure MinimalCache where
  map : MapCache

instance : Backend MinimalCache where
  provider _ := "minimal"
  name c := c.map.name
  get c := c.map.get
  begin c k :=
    let (b, m) := c.map.begin k
    (b, ⟨m⟩)
  finish c k i loaded :=
    let (o, m) := c.map.finish k i loaded
    (o, ⟨m⟩)
  put c k v := (c.map.put k v).map MinimalCache.mk
  evict c k := ⟨c.map.evict k⟩
  clear c := ⟨c.map.clear⟩

end CachedCalls
