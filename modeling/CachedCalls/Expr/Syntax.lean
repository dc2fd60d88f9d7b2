import CachedCalls.Value.Basic

set_option autoImplicit false

namespace CachedCalls.Expr

inductive UnaryOp where
  | not
  | negate
  deriving DecidableEq

inductive BinaryOp where
  | or | and
  | eq | ne | lt | le | gt | ge
  | add | sub | mul | div | rem
  deriving DecidableEq

end CachedCalls.Expr

namespace CachedCalls

/-- The mark `safe` is for a member access that gives null on null. -/
inductive Expr where
  | literal (v : Value)
  | var (name : String)
  | name (name : String)
  | property (target : Expr) (name : String) (safe : Bool)
  | call (target : Expr) (name : String) (args : List Expr) (safe : Bool)
  | index (target index : Expr)
  | list (items : List Expr)
  | unary (op : Expr.UnaryOp) (operand : Expr)
  | binary (op : Expr.BinaryOp) (left right : Expr)
  | ternary (condition yes no : Expr)
  | elvis (value fallback : Expr)

end CachedCalls
