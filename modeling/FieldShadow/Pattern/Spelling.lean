import FieldShadow.Unicode.CodeSet

/-!
# Spellings of characters in bytes

A pattern is searched for byte by byte, so a set of characters has to be told as sequences of byte
ranges: a character belongs to the set when its bytes lie in the ranges of one of the sequences. A
run of code points is cut first where the number of bytes changes, then where a byte that is not the
last one changes while the bytes behind it do not go through all their values.
-/

namespace FieldShadow.Pattern

open Unicode (CodeSet)

/-- The bytes from `low` to `high`. -/
structure ByteRange where
  low : UInt8
  high : UInt8
  deriving DecidableEq, Repr

/-- Cuts the code points from `first` to `last` into pieces in which every byte goes through its
range independently of the others. `sizes` are the numbers of code points that share all but the
last byte, all but the last two, and so on. -/
def cutAtBlocks : List Nat → (first last : Nat) → List (Nat × Nat)
  | [], first, last => [(first, last)]
  | size :: sizes, first, last =>
    if first / size = last / size then [(first, last)]
    else
      let inner := if first % size = 0 then first else (first / size + 1) * size
      let past := if last % size = size - 1 then last + 1 else last / size * size
      let before := if first < inner then [(first, inner - 1)] else []
      let within := if inner < past then cutAtBlocks sizes inner (past - 1) else []
      let behind := if past ≤ last then [(past, last)] else []
      before ++ within ++ behind

/-- The code points of one, two, three and four bytes, with the sizes of their blocks. -/
def byteLengths : List ((Nat × Nat) × List Nat) :=
  [((0, 0x7F), []), ((0x80, 0x7FF), [64]), ((0x800, 0xFFFF), [64, 4096]),
    ((0x10000, 0x10FFFF), [64, 4096, 262144])]

/-- The byte ranges between the spellings of two characters. -/
def rangesBetween (first last : Nat) : List ByteRange :=
  List.zipWith ByteRange.mk (String.utf8EncodeChar (Char.ofNat first))
    (String.utf8EncodeChar (Char.ofNat last))

/-- The spellings of the characters from `first` to `last`, in increasing order. -/
def runSpellings (first last : Nat) : List (List ByteRange) :=
  byteLengths.flatMap fun ((least, greatest), sizes) =>
    let first := max first least
    let last := min last greatest
    if first ≤ last then
      (cutAtBlocks sizes first last).map fun (first, last) => rangesBetween first last
    else []

/-- The spellings of the characters of a set, in increasing order. -/
def spellings (codes : CodeSet) : List (List ByteRange) :=
  codes.runs.flatMap fun (first, last) => runSpellings first last

/-- A set of characters together with its spellings. -/
structure CharSet where
  codes : CodeSet
  sequences : List (List ByteRange)
  spelled : sequences = spellings codes

/-- The set of some code points. -/
def CharSet.ofCodes (codes : CodeSet) : CharSet :=
  ⟨codes, spellings codes, rfl⟩

/-- Whether the set holds ASCII characters only. -/
def CharSet.isAscii (s : CharSet) : Bool :=
  s.codes.bounds.all (· ≤ 0x80)

/-- The bytes of a text. -/
def textBytes (text : List Char) : List UInt8 :=
  text.flatMap String.utf8EncodeChar

end FieldShadow.Pattern
