set_option autoImplicit false

namespace CachedCalls

/-- Whole numbers and floats never mix: `5` and `5.0` are different values. The fields of an object
    are sorted by name, each name once. -/
inductive Value where
  | null
  | bool (b : Bool)
  | int (n : Int)
  | float (x : Float)
  | str (s : String)
  | arr (items : List Value)
  | obj (fields : List (String × Value))

namespace Value

instance : Inhabited Value := ⟨null⟩

def isNull : Value → Bool
  | null => true
  | _ => false

def isStr : Value → Bool
  | str _ => true
  | _ => false

def kind : Value → String
  | null => "null"
  | bool _ => "boolean"
  | int _ => "number"
  | float _ => "number"
  | str _ => "string"
  | arr _ => "array"
  | obj _ => "object"

mutual

def same : Value → Value → Bool
  | null, null => true
  | bool a, bool b => decide (a = b)
  | int a, int b => decide (a = b)
  | float a, float b => decide (a = b)
  | str a, str b => decide (a = b)
  | arr as, arr bs => sameItems as bs
  | obj as, obj bs => sameFields as bs
  | _, _ => false

def sameItems : List Value → List Value → Bool
  | [], [] => true
  | a :: as, b :: bs => same a b && sameItems as bs
  | _, _ => false

def sameFields : List (String × Value) → List (String × Value) → Bool
  | [], [] => true
  | (k, a) :: as, (l, b) :: bs => decide (k = l) && (same a b && sameFields as bs)
  | _, _ => false

end

mutual

theorem same_iff (a b : Value) : same a b = true ↔ a = b := by
  cases a <;> cases b <;> simp [same]
  case arr.arr as bs => exact sameItems_iff as bs
  case obj.obj as bs => exact sameFields_iff as bs

theorem sameItems_iff (as bs : List Value) : sameItems as bs = true ↔ as = bs := by
  match as, bs with
  | [], [] => simp [sameItems]
  | [], _ :: _ => simp [sameItems]
  | _ :: _, [] => simp [sameItems]
  | a :: as, b :: bs => simp [sameItems, same_iff a b, sameItems_iff as bs]

theorem sameFields_iff (as bs : List (String × Value)) : sameFields as bs = true ↔ as = bs := by
  match as, bs with
  | [], [] => simp [sameFields]
  | [], _ :: _ => simp [sameFields]
  | _ :: _, [] => simp [sameFields]
  | (k, a) :: as, (l, b) :: bs =>
    simp [sameFields, same_iff a b, sameFields_iff as bs, and_assoc]

end

instance : DecidableEq Value := fun a b => decidable_of_iff _ (same_iff a b)

mutual

/-- Floats are compared as numbers, all else as it is written. -/
def agrees : Value → Value → Bool
  | null, null => true
  | bool a, bool b => decide (a = b)
  | int a, int b => decide (a = b)
  | float a, float b => a == b
  | str a, str b => decide (a = b)
  | arr as, arr bs => agreesItems as bs
  | obj as, obj bs => agreesFields as bs
  | _, _ => false

def agreesItems : List Value → List Value → Bool
  | [], [] => true
  | a :: as, b :: bs => agrees a b && agreesItems as bs
  | _, _ => false

def agreesFields : List (String × Value) → List (String × Value) → Bool
  | [], [] => true
  | (k, a) :: as, (l, b) :: bs => decide (k = l) && (agrees a b && agreesFields as bs)
  | _, _ => false

end

def insertField (k : String) (v : Value) : List (String × Value) → List (String × Value)
  | [] => [(k, v)]
  | (l, w) :: fs =>
    if k = l then (k, v) :: fs
    else if k < l then (k, v) :: (l, w) :: fs
    else (l, w) :: insertField k v fs

/-- An object of these fields; of two fields of one name the later counts. -/
def record (fs : List (String × Value)) : Value :=
  obj (fs.foldl (fun acc f => insertField f.1 f.2 acc) [])

def field? (k : String) (fs : List (String × Value)) : Option Value := fs.lookup k

def ofNat (n : Nat) : Value := int n

def ofOption : Option Value → Value
  | some v => v
  | none => null

def strs (ss : List String) : Value := arr (ss.map str)

end Value

end CachedCalls
