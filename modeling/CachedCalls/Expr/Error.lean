import CachedCalls.Expr.Token

set_option autoImplicit false

namespace CachedCalls.Expr

inductive SyntaxFault where
  | badChar (c : Char)
  | openText
  | bareHash
  | badNumber (literal : String)
  | unexpected (found : Option Token)
  | trailing (found : Option Token)
  | expected (sign : Sign) (found : Option Token)
  | expectedName (found : Option Token)
  | tooDeep
  deriving DecidableEq

def SyntaxFault.message : SyntaxFault → String
  | badChar c => "unexpected character '" ++ c.toString ++ "'"
  | openText => "unterminated string literal"
  | bareHash => "expected variable name after '#'"
  | badNumber l => "invalid number literal '" ++ l ++ "'"
  | unexpected f => "unexpected token " ++ foundLabel f
  | trailing f => "unexpected trailing token " ++ foundLabel f
  | expected s f => "expected " ++ s.label ++ ", found " ++ foundLabel f
  | expectedName f => "expected property name, found " ++ foundLabel f
  | tooDeep => "nested too deeply"

inductive Wanted where
  | boolean
  | number
  | string
  | index
  | indexable
  | finite
  | comparableNumber
  | comparableWith (kind : String)
  deriving DecidableEq

def Wanted.text : Wanted → String
  | boolean => "boolean"
  | number => "number"
  | string => "string"
  | index => "integer index"
  | indexable => "array, string or object"
  | finite => "finite number"
  | comparableNumber => "comparable number"
  | comparableWith k => "values comparable with " ++ k

end CachedCalls.Expr

namespace CachedCalls

open CachedCalls.Expr in
/-- The error `notAvailable` is raised by a variable that has no value yet. -/
inductive ExprError where
  | syntaxError (text : String) (position : Nat) (fault : SyntaxFault)
  | notAvailable (name : String)
  | onNull (property : String)
  | unknownProperty (name : String)
  | unknownMethod (name receiver : String)
  | mismatch (wanted : Wanted) (found : String)
  | outOfBounds (index : Int) (length : Nat)
  | divisionByZero
  deriving DecidableEq

namespace ExprError

def mismatchOf (wanted : Expr.Wanted) (v : Value) : ExprError := mismatch wanted v.kind

def message : ExprError → String
  | syntaxError t p f =>
    "Failed to parse expression '" ++ t ++ "' at position " ++ toString p ++ ": " ++ f.message
  | notAvailable n => "Variable '" ++ n ++ "' is not available in this evaluation context"
  | onNull p => "Cannot access '" ++ p ++ "' on null"
  | unknownProperty n => "Unknown property '" ++ n ++ "'"
  | unknownMethod n r => "Unknown method '" ++ n ++ "' on " ++ r
  | mismatch w f => "Type mismatch: expected " ++ w.text ++ ", found " ++ f
  | outOfBounds i n => "Index " ++ toString i ++ " out of bounds for length " ++ toString n
  | divisionByZero => "Division by zero"

end ExprError

end CachedCalls
