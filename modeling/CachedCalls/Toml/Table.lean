import CachedCalls.Value.Basic

set_option autoImplicit false

namespace CachedCalls.Toml

inductive Origin where
  | header
  | implied
  | dotted
  deriving DecidableEq

/-- The `tables` are those of a list made by headers, the last of them being open. -/
inductive Node where
  | value (v : Value)
  | table (o : Origin) (fs : List (String × Node))
  | tables (ts : List (List (String × Node)))

abbrev Fields := List (String × Node)

abbrev Change := Origin → Fields → Option (Origin × Fields)

def replace (k : String) (n : Node) : Fields → Fields
  | [] => [(k, n)]
  | (l, m) :: fs => if l = k then (l, n) :: fs else (l, m) :: replace k n fs

/-- Changes the table at the end of a path, making the tables on the way that are missing. A dotted
    key does not lead into a table that has a header. -/
def within (dotted : Bool) (change : Change) : List String → Change
  | [], o, fs => change o fs
  | k :: ks, o, fs =>
    match fs.lookup k with
    | none => do
      let (o', fs') ← within dotted change ks (if dotted then .dotted else .implied) []
      some (o, replace k (.table o' fs') fs)
    | some (.value _) => none
    | some (.table o' fs') =>
      if dotted ∧ o' = .header then none
      else do
        let (o'', fs'') ← within dotted change ks o' fs'
        some (o, replace k (.table o'' fs'') fs)
    | some (.tables ts) => do
      let last ← ts.getLast?
      let (_, fs') ← within dotted change ks .header last
      some (o, replace k (.tables (ts.dropLast ++ [fs'])) fs)

def openTable (k : String) : Change := fun o fs =>
  match fs.lookup k with
  | none => some (o, replace k (.table .header []) fs)
  | some (.table .implied fs') => some (o, replace k (.table .header fs') fs)
  | _ => none

def openItem (k : String) : Change := fun o fs =>
  match fs.lookup k with
  | none => some (o, replace k (.tables [[]]) fs)
  | some (.tables ts) => some (o, replace k (.tables (ts ++ [[]])) fs)
  | _ => none

/-- Defines a key; `direct` says that it was written without a dot. -/
def define (direct : Bool) (k : String) (v : Value) : Change := fun o fs =>
  if decide (o = .dotted) = direct then none
  else
    match fs.lookup k with
    | none => some (o, replace k (.value v) fs)
    | some _ => none

def defineAt (path : List String) (v : Value) : Change :=
  match path.getLast? with
  | none => fun _ _ => none
  | some k => within true (define (path.length == 1) k v) path.dropLast

mutual

def Node.toValue : Node → Value
  | .value v => v
  | .table _ fs => .record (fieldsToValues fs)
  | .tables ts => .arr (tablesToValues ts)

def fieldsToValues : List (String × Node) → List (String × Value)
  | [] => []
  | (k, n) :: fs => (k, n.toValue) :: fieldsToValues fs

def tablesToValues : List (List (String × Node)) → List Value
  | [] => []
  | fs :: ts => .record (fieldsToValues fs) :: tablesToValues ts

end

end CachedCalls.Toml
