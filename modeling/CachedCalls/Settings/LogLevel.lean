import CachedCalls.Text.Casing

set_option autoImplicit false

namespace CachedCalls.LogLevel

/-- The variables that are set; an empty text counts as set. -/
structure Variables where
  environment : Option String
  appEnvironment : Option String
  level : Option String
  directives : Option String

def environment (vs : Variables) : String :=
  ((vs.environment).or vs.appEnvironment).getD "development"

def byEnvironment (env : String) : String := if env = "production" then "info" else "debug"

def level (vs : Variables) (env : String) : String :=
  match vs.level.or vs.directives with
  | some l => Text.lower l
  | none => byEnvironment env

end CachedCalls.LogLevel
