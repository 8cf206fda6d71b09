import FieldShadow.Unicode.Property

/-!
# Quoted text

A text shown between double quotes, with every character that could be misread escaped.
-/

namespace FieldShadow.Text

/-- A character by its code point in hexadecimal. -/
def codePointEscape (c : Char) : List Char :=
  ['\\', 'u', '{'] ++ Nat.toDigits 16 c.toNat ++ ['}']

/-- A character inside quotes. The quote, the backslash and the usual controls have escapes of two
characters; a character that attaches to its neighbour or cannot be shown stands by its code
point. -/
def escapeChar (c : Char) : List Char :=
  if c = '\x00' then ['\\', '0']
  else if c = '\t' then ['\\', 't']
  else if c = '\r' then ['\\', 'r']
  else if c = '\n' then ['\\', 'n']
  else if c = '"' then ['\\', '"']
  else if c = '\\' then ['\\', '\\']
  else if Unicode.isGraphemeExtender c || !Unicode.isPrintable c then codePointEscape c
  else [c]

/-- A text between double quotes. -/
def quote (s : String) : String :=
  String.ofList ('"' :: s.toList.flatMap escapeChar ++ ['"'])

end FieldShadow.Text
