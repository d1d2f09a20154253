import Grounder.Text.Printable

/-!
# `Grounder.Text.Quoted`: texts as quoted literals

A literal stands between double quotes. Quotes, backslashes and the common controls are written
with a backslash, and every other character that does not show as itself is written by its code.
-/

set_option autoImplicit false

namespace Grounder.Text.Quoted

/-- A character by its code: a backslash, `u`, and the code in hexadecimal between braces. -/
def byCode (c : Char) : List Char :=
  ['\\', 'u', '{'] ++ Nat.toDigits 16 c.toNat ++ ['}']

/-- A character as written inside a literal. -/
def encodeChar (c : Char) : List Char :=
  if c = '"' then ['\\', '"']
  else if c = '\\' then ['\\', '\\']
  else if c = '\n' then ['\\', 'n']
  else if c = '\r' then ['\\', 'r']
  else if c = '\t' then ['\\', 't']
  else if c = '\x00' then ['\\', '0']
  else if isShown c then [c]
  else byCode c

/-- The text as a literal. -/
def encode (s : String) : String :=
  String.ofList ('"' :: s.toList.flatMap encodeChar ++ ['"'])

end Grounder.Text.Quoted
