import CachedCalls.Text.Shown
import CachedCalls.Value.Text

set_option autoImplicit false

namespace CachedCalls.Expr

inductive Sign where
  | lparen | rparen | lbracket | rbracket | lbrace | rbrace
  | comma | dot | safeDot | question | elvis | colon
  | plus | minus | star | slash | percent
  | eq | ne | lt | le | gt | ge
  | and | or | not
  deriving DecidableEq

inductive Token where
  | int (n : Nat)
  | float (x : Float)
  | text (s : String)
  | name (s : String)
  | var (s : String)
  | sign (s : Sign)
  deriving DecidableEq

/-- A token and the number of characters before it. -/
structure Spot where
  token : Token
  position : Nat
  deriving DecidableEq

def Sign.label : Sign → String
  | .lparen => "LParen" | .rparen => "RParen"
  | .lbracket => "LBracket" | .rbracket => "RBracket"
  | .lbrace => "LBrace" | .rbrace => "RBrace"
  | .comma => "Comma" | .dot => "Dot" | .safeDot => "SafeNav"
  | .question => "Question" | .elvis => "Elvis" | .colon => "Colon"
  | .plus => "Plus" | .minus => "Minus" | .star => "Star"
  | .slash => "Slash" | .percent => "Percent"
  | .eq => "Eq" | .ne => "Ne" | .lt => "Lt" | .le => "Le" | .gt => "Gt" | .ge => "Ge"
  | .and => "And" | .or => "Or" | .not => "Not"

def Token.label : Token → String
  | .int n => "Number(Number(" ++ (Value.int n).text ++ "))"
  | .float x => "Number(Number(" ++ (Value.float x).text ++ "))"
  | .text s => "Str(" ++ Text.shown s ++ ")"
  | .name s => "Ident(" ++ Text.shown s ++ ")"
  | .var s => "Variable(" ++ Text.shown s ++ ")"
  | .sign s => s.label

def foundLabel : Option Token → String
  | some t => t.label
  | none => "Eof"

end CachedCalls.Expr
