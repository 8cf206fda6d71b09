/-!
# Counts

Numbers that fit into 64 bits, read from decimal digits.
-/

namespace FieldShadow.Text

/-- The value of decimal digits. -/
def digitsValue (ds : List Char) : Nat :=
  ds.foldl (fun n d => n * 10 + (d.toNat - '0'.toNat)) 0

/-- The digits of a number without the plus sign that may stand in front. -/
def unsigned : List Char → List Char
  | '+' :: ds => ds
  | ds => ds

/-- The first number that does not fit. -/
def countBound : Nat := 0x10000000000000000

/-- Reads a number that fits into 64 bits. -/
def parseCount? (s : String) : Option Nat :=
  let ds := unsigned s.toList
  if ds ≠ [] ∧ ds.all Char.isDigit ∧ digitsValue ds < countBound then some (digitsValue ds)
  else none

end FieldShadow.Text
