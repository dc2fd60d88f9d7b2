import CachedCalls.Method.Hierarchy
import CachedCalls.Value.Text

set_option autoImplicit false

namespace CachedCalls

/-- A single value, or several taken together. -/
inductive Key where
  | plain (v : Value)
  | composite (params : List Value)
  deriving DecidableEq

inductive HashPiece where
  | tag (n : Nat)
  | count (n : Nat)
  | whole (n : Int)
  | bits (n : Nat)
  | chars (s : String)
  deriving DecidableEq

mutual

/-- The kind of a value, then its content; lists and objects begin with their length. -/
def Value.hashed : Value → List HashPiece
  | .null => [.tag 0]
  | .bool b => [.tag 1, .count b.toNat]
  | .int n => [.tag 2, .tag (if 0 ≤ n then 0 else 1), .whole n]
  | .float x => [.tag 2, .tag 2, .bits x.toBits.toNat]
  | .str s => [.tag 3, .chars s]
  | .arr vs => .tag 4 :: .count vs.length :: Value.hashedItems vs
  | .obj fs => .tag 5 :: .count fs.length :: Value.hashedFields fs

def Value.hashedItems : List Value → List HashPiece
  | [] => []
  | v :: vs => v.hashed ++ Value.hashedItems vs

def Value.hashedFields : List (String × Value) → List HashPiece
  | [] => []
  | (k, v) :: fs => .chars k :: (v.hashed ++ Value.hashedFields fs)

end

namespace Key

def isNull : Key → Bool
  | plain v => v.isNull
  | composite _ => false

def toValue : Key → Value
  | plain v => v
  | composite vs => .arr vs

def text : Key → String
  | plain v => v.plain
  | composite vs => "SimpleKey [" ++ ",".intercalate (vs.map Value.text) ++ "]"

def paramsHashed (vs : List Value) : List HashPiece := .count vs.length :: Value.hashedItems vs

def hashed : Key → List HashPiece
  | plain v => .tag 0 :: v.hashed
  | composite vs => .tag 1 :: paramsHashed vs

/-- Composite keys compare their hashes before their parameters. -/
def agrees : Key → Key → Bool
  | plain a, plain b => a.agrees b
  | composite as, composite bs =>
    decide (paramsHashed as = paramsHashed bs) && Value.agreesItems as bs
  | _, _ => false

/-- One argument that is neither null nor a list is the key itself; otherwise the key is made of
    all arguments. -/
def ofArgs : List Value → Key
  | [v] =>
    match v with
    | .null => composite [v]
    | .arr _ => composite [v]
    | v => plain v
  | vs => composite vs

/-- The key in the notation that dumps are ordered by. -/
def toRecord : Key → Value
  | plain v => .obj [("v", v)]
  | composite vs => .obj [("simple", .arr vs)]

end Key

abbrev KeyGenerator := Target → Method → List Value → Key

namespace KeyGenerator

def simple : KeyGenerator := fun _ _ args => .ofArgs args

def fixed (k : Key) : KeyGenerator := fun _ _ _ => k

def everything : KeyGenerator := fun t m args =>
  .composite (.str m.text :: t.state :: args)

end KeyGenerator

end CachedCalls
