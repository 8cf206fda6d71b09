import FieldShadow.Unicode.Alphabetic
import FieldShadow.Unicode.Numeric
import FieldShadow.Unicode.Mark
import FieldShadow.Unicode.Printable

/-!
# Character properties

The classes of characters that identifiers, numbers, white space, patterns and quoted texts are
made of. Each is decided directly on ASCII and by its table beyond.
-/

namespace FieldShadow.Unicode

/-- White space (property White_Space). -/
def whiteSpaces : CodeSet := ⟨#[
  0x9, 0xE, 0x20, 0x21, 0x85, 0x86, 0xA0, 0xA1, 0x1680, 0x1681, 0x2000, 0x200B, 0x2028, 0x202A,
  0x202F, 0x2030, 0x205F, 0x2060, 0x3000, 0x3001]⟩

/-- Punctuation that joins words (general category Pc). -/
def connectors : CodeSet := ⟨#[
  0x5F, 0x60, 0x203F, 0x2041, 0x2054, 0x2055, 0xFE33, 0xFE35, 0xFE4D, 0xFE50, 0xFF3F, 0xFF40]⟩

/-- The zero-width joiners (property Join_Control). -/
def joinControls : CodeSet := ⟨#[0x200C, 0x200E]⟩

/-- The characters of words: letters, marks, decimal digits, connectors and joiners. -/
def wordChars : CodeSet :=
  (alphabetic.union marks).union (decimalDigits.union (connectors.union joinControls))

/-- White space of any kind. -/
def isWhiteSpace (c : Char) : Bool :=
  let n := c.toNat
  if n < 0x80 then (0x9 ≤ n && n ≤ 0xD) || n == 0x20 else whiteSpaces.contains c

/-- Letters and all that counts as part of a word (property Alphabetic). -/
def isAlphabetic (c : Char) : Bool :=
  if c.toNat < 0x80 then c.isAlpha else alphabetic.contains c

/-- Numbers of every kind (general categories Nd, Nl and No). -/
def isNumeric (c : Char) : Bool :=
  if c.toNat < 0x80 then c.isDigit else numerics.contains c

/-- Letters and numbers. -/
def isAlphanumeric (c : Char) : Bool :=
  isAlphabetic c || isNumeric c

/-- The digits of a positional decimal system (general category Nd). -/
def isDecimalDigit (c : Char) : Bool :=
  if c.toNat < 0x80 then c.isDigit else decimalDigits.contains c

/-- A character of a word. -/
def isWordChar (c : Char) : Bool :=
  if c.toNat < 0x80 then c.isAlphanum || c == '_' else wordChars.contains c

/-- A character that attaches to the one before it (property Grapheme_Extend). -/
def isGraphemeExtender (c : Char) : Bool :=
  if c.toNat < 0x80 then false else graphemeExtenders.contains c

/-- A character that a text may show as it is. -/
def isPrintable (c : Char) : Bool :=
  if c.toNat < 0x80 then 0x20 ≤ c.toNat && c.toNat < 0x7F else printables.contains c

end FieldShadow.Unicode
