import CachedCalls.Ini.Document
import CachedCalls.Json5.Document
import CachedCalls.Ron.Document
import CachedCalls.Settings.Environment
import CachedCalls.Settings.Path
import CachedCalls.Settings.Reader
import CachedCalls.Text.Pieces
import CachedCalls.Toml.Document
import CachedCalls.Value.Read
import CachedCalls.Yaml.Document

set_option autoImplicit false

namespace CachedCalls

structure SettingsFile where
  path : String
  text : Option String

namespace SettingsFile

def extension? (path : String) : Option String :=
  let file := (path.toList.reverse.takeWhile (· != '/'))
  match file.dropWhile (· != '.') with
  | '.' :: _ :: _ => some (String.ofList (file.takeWhile (· != '.')).reverse)
  | _ => none

/-- How deep brackets stand inside one another in the text of a value; `quoted` says that a quote
    is open, `level` how many brackets are. -/
def nesting (quoted : Bool) (level : Nat) : List Char → Nat
  | [] => level
  | '\\' :: _ :: r => nesting quoted level r
  | c :: r =>
    if c = '"' then nesting (!quoted) level r
    else if quoted then nesting true level r
    else if c = '[' ∨ c = '\x7b' then nesting false (level + 1) r
    else if c = ']' ∨ c = '\x7d' then max level (nesting false (level - 1) r)
    else nesting false level r

def depthLimit : Nat := 127

mutual

/-- A whole number that is too large for a signed word is kept as a float. -/
def narrowed : Value → Value
  | .int n => if Number.isSigned n then .int n else .float (Number.nearest false n.toNat 0)
  | .arr vs => .arr (narrowedItems vs)
  | .obj fs => .obj (narrowedFields fs)
  | v => v

def narrowedItems : List Value → List Value
  | [] => []
  | v :: vs => narrowed v :: narrowedItems vs

def narrowedFields : List (String × Value) → List (String × Value)
  | [] => []
  | (k, v) :: fs => (k, narrowed v) :: narrowedFields fs

end

def json? (text : String) : Option Value :=
  if nesting false 0 text.toList ≤ depthLimit then (Value.ofText? text).map narrowed else none

def unmarked (text : String) : String :=
  match text.toList with
  | '\uFEFF' :: cs => String.ofList cs
  | _ => text

def parse? (path text : String) : Option Value :=
  let text := unmarked text
  match extension? path with
  | some "toml" => Toml.ofText? text
  | some "json" => json? text
  | some "yaml" | some "yml" => Yaml.ofText? text
  | some "ini" => Ini.ofText? text
  | some "json5" => Json5.ofText? text
  | some "ron" => Ron.ofText? text
  | _ => none

/-- A path of nothing but points between slashes leads to a directory, which is always there. -/
def isDirectory (path : String) : Bool :=
  path != "" && (Text.pieces '/' path.toList).all fun p => p ∈ [[], ['.'], ['.', '.']]

/-- The entries at the root of a file. -/
def entries (f : SettingsFile) : Except SettingsError (List (String × Value)) :=
  match f.text with
  | none => .error (if isDirectory f.path then .unreadable else .notFound f.path)
  | some text =>
    match parse? f.path text with
    | some (.obj fs) => .ok fs
    | _ => .error .unreadable

end SettingsFile

namespace Settings

def setEntry (tree : Value) (e : String × Value) : Except SettingsError Value :=
  match Path.set? e.2 (Path.ofText e.1) tree with
  | some t => .ok t
  | none => .error (.noPlace e.1)

/-- Each entry is set over those before it. -/
def layer (es : List (String × Value)) (tree : Value) : Except SettingsError Value :=
  es.foldlM setEntry tree

def load (file : Option SettingsFile) (vars : List (String × String)) :
    Except SettingsError Settings := do
  let es ←
    match file with
    | some f => f.entries
    | none => pure []
  let tree ← layer es (.obj [])
  let tree ← layer (Environment.entries vars) tree
  match SettingsReader.lenient.settings tree with
  | some s => s.validate
  | none => throw .unreadable

end Settings

end CachedCalls
