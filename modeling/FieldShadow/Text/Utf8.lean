/-!
# Reading UTF-8

The bytes of a text are decoded character by character. What the first byte of a character asks
of those after it is written down once, in `Lead.ofByte?`; a fault is reported at the first byte of
the character it spoils, with the number of its bytes that were still possible.
-/

namespace FieldShadow.Text

/-- Why some bytes are no text: a character that is spoiled after `length` bytes, or one that the
end of the bytes cuts off. -/
inductive Utf8Error
  | malformed (index length : Nat)
  | truncated (index : Nat)
  deriving DecidableEq, Repr

/-- The wording of a decoding error. -/
def Utf8Error.message : Utf8Error → String
  | .malformed index length =>
    "invalid utf-8 sequence of " ++ toString length ++ " bytes from index " ++ toString index
  | .truncated index => "incomplete utf-8 byte sequence from index " ++ toString index

/-- What the first byte of a character says: the bits it holds, the number of bytes that follow,
and the range the next one must be in. -/
structure Lead where
  bits : Nat
  tails : Nat
  low : Nat := 0x80
  high : Nat := 0xBF

/-- Reads the first byte of a character. The narrowed ranges rule out overlong forms, surrogates
and code points beyond the last one. -/
def Lead.ofByte? (b : Nat) : Option Lead :=
  if b < 0x80 then some { bits := b, tails := 0 }
  else if b < 0xC2 then none
  else if b < 0xE0 then some { bits := b - 0xC0, tails := 1 }
  else if b = 0xE0 then some { bits := 0, tails := 2, low := 0xA0 }
  else if b = 0xED then some { bits := 0xD, tails := 2, high := 0x9F }
  else if b < 0xF0 then some { bits := b - 0xE0, tails := 2 }
  else if b = 0xF0 then some { bits := 0, tails := 3, low := 0x90 }
  else if b < 0xF4 then some { bits := b - 0xF0, tails := 3 }
  else if b = 0xF4 then some { bits := 4, tails := 3, high := 0x8F }
  else none

/-- Adds `owed` following bytes to the bits read so far. The first must be in the given range, the
others in that of all following bytes; `index` is where the character began and `seen` the number
of its bytes already read. -/
def readTails (index : Nat) (low high bits seen : Nat) :
    (owed : Nat) → List UInt8 → Except Utf8Error Nat
  | 0, _ => .ok bits
  | _ + 1, [] => .error (.truncated index)
  | owed + 1, b :: rest =>
    if low ≤ b.toNat ∧ b.toNat ≤ high then
      readTails index 0x80 0xBF (bits * 0x40 + b.toNat % 0x40) (seen + 1) owed rest
    else .error (.malformed index seen)

/-- Decodes the bytes from `index` on. -/
def decodeFrom (index : Nat) : List UInt8 → Except Utf8Error (List Char)
  | [] => .ok []
  | b :: rest =>
    match Lead.ofByte? b.toNat with
    | none => .error (.malformed index 1)
    | some lead => do
      let code ← readTails index lead.low lead.high lead.bits 1 lead.tails rest
      return Char.ofNat code :: (← decodeFrom (index + 1 + lead.tails) (rest.drop lead.tails))
termination_by bytes => bytes.length

/-- Decodes a text. -/
def decodeUtf8 (bytes : List UInt8) : Except Utf8Error String :=
  (decodeFrom 0 bytes).map String.ofList

end FieldShadow.Text
