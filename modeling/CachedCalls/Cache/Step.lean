import CachedCalls.Cache.Basic

set_option autoImplicit false

namespace CachedCalls.Cache

inductive Step where
  | get (k : Key)
  | put (k : Key) (v : Value)
  | putIfAbsent (k : Key) (v : Value)
  | evict (k : Key)
  | evictIfPresent (k : Key)
  | clear
  | invalidate
  | contains (k : Key)
  | describe
  | compute (k : Key) (loaded : Except String Value) (nested : List Step)

/-- The answer `unknown` is for a question that only the map can answer. -/
inductive Reply where
  | found (v : Option Value)
  | done
  | truth (b : Bool)
  | unknown
  | about (name provider : String) (map : Option MapCache)
  | value (v : Value)
  | failed (e : CacheError)

/-- How it came to a value: there was no need to load it, or it was loaded with these requests
    answered meanwhile. -/
inductive Answer where
  | mk (reply : Reply) (size : Option Nat) (load : Option (Option (List Answer)))

def Reply.ofOutcome : Outcome → Reply
  | .ok v => value v
  | .error e => failed e

variable {γ : Type} [Backend γ]

def size? (c : γ) : Option Nat := (Backend.map? c).map (·.entries.length)

def answer (r : Reply) (c : γ) : Answer × γ := (.mk r (size? c) none, c)

mutual

def Step.run : Step → γ → Answer × γ
  | .get k, c => answer (.found (Backend.get c k)) c
  | .put k v, c =>
    match Backend.put c k v with
    | .ok c => answer .done c
    | .error e => answer (.failed e) c
  | .putIfAbsent k v, c =>
    match Backend.putIfAbsent c k v with
    | .ok (w, c) => answer (.found w) c
    | .error e => answer (.failed e) c
  | .evict k, c => answer .done (Backend.evict c k)
  | .evictIfPresent k, c =>
    let (b, c) := Backend.evictIfPresent c k
    answer (.truth b) c
  | .clear, c => answer .done (Backend.clear c)
  | .invalidate, c =>
    let (b, c) := Backend.invalidate c
    answer (.truth b) c
  | .contains k, c =>
    match Backend.map? c with
    | some m => answer (.truth (m.get k).isSome) c
    | none => answer .unknown c
  | .describe, c => answer (.about (Backend.name c) (Backend.provider c) (Backend.map? c)) c
  | .compute k loaded nested, c =>
    match Backend.begin c k with
    | (.answered o, c) => (.mk (.ofOutcome o) (size? c) (some none), c)
    | (.load i, c) =>
      let (as, c) := Step.runAll nested c
      let (o, c) := Backend.finish c k i loaded
      (.mk (.ofOutcome o) (size? c) (some (some as)), c)

def Step.runAll : List Step → γ → List Answer × γ
  | [], c => ([], c)
  | s :: ss, c =>
    let (a, c) := Step.run s c
    let (as, c) := Step.runAll ss c
    (a :: as, c)

end

end CachedCalls.Cache
