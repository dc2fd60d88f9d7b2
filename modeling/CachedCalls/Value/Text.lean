import CachedCalls.Value.Basic
import CachedCalls.Number.Layout

set_option autoImplicit false

namespace CachedCalls.Value

def hexByte (n : Nat) : List Char := [Nat.digitChar (n / 16 % 16), Nat.digitChar (n % 16)]

def escapeChar (c : Char) : List Char :=
  if c = '"' then ['\\', '"']
  else if c = '\\' then ['\\', '\\']
  else if c = '\x08' then ['\\', 'b']
  else if c = '\x0c' then ['\\', 'f']
  else if c = '\n' then ['\\', 'n']
  else if c = '\r' then ['\\', 'r']
  else if c = '\t' then ['\\', 't']
  else if c.toNat < 32 then '\\' :: 'u' :: '0' :: '0' :: hexByte c.toNat
  else [c]

def quoted (s : String) : List Char := '"' :: s.toList.flatMap escapeChar ++ ['"']

def intChars (n : Int) : List Char :=
  (if n < 0 then ['-'] else []) ++ Nat.toDigits 10 n.natAbs

mutual

def chars : Value → List Char
  | null => "null".toList
  | bool true => "true".toList
  | bool false => "false".toList
  | int n => intChars n
  | float x => Number.valueLayout.chars x
  | str s => quoted s
  | arr items => '[' :: itemChars items ++ [']']
  | obj fields => '\x7b' :: fieldChars fields ++ ['\x7d']

def itemChars : List Value → List Char
  | [] => []
  | v :: vs => chars v ++ (if vs.isEmpty then [] else ',' :: itemChars vs)

def fieldChars : List (String × Value) → List Char
  | [] => []
  | (k, v) :: fs => quoted k ++ ':' :: chars v ++ (if fs.isEmpty then [] else ',' :: fieldChars fs)

end

def text (v : Value) : String := String.ofList v.chars

def plain : Value → String
  | str s => s
  | v => v.text

end CachedCalls.Value
