import Reflex.Number.Hexadecimal
import Reflex.Text.Hidden

/-!
# Quoted Texts

A text between double quotes, in which quotes, backslashes, control characters, characters that
do not print, and marks that would join with the character before them are escaped.
-/

namespace Reflex.Text

/-- The escape by code point. -/
def codePointEscape (c : Char) : List Char :=
  ['\\', 'u', '\x7b'] ++ Hexadecimal.digits c.toNat ++ ['\x7d']

/-- The written form of one character of a quoted text. -/
def quotedChar (c : Char) : List Char :=
  if c = '\x00' then ['\\', '0']
  else if c = '\t' then ['\\', 't']
  else if c = '\n' then ['\\', 'n']
  else if c = '\r' then ['\\', 'r']
  else if c = '"' then ['\\', '"']
  else if c = '\\' then ['\\', '\\']
  else if isShown c then [c]
  else codePointEscape c

/-- A text between quotes. -/
def quoted (s : String) : String :=
  String.ofList ('"' :: s.toList.flatMap quotedChar ++ ['"'])

end Reflex.Text
