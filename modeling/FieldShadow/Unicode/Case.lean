import FieldShadow.Unicode.CaseTable
import FieldShadow.Unicode.CodeSet

/-!
# Case

Uppercase characters and forms, and the sets of characters that differ in case only.
-/

namespace FieldShadow.Unicode

/-- Whether `c` is an uppercase character (property Uppercase). -/
def isUppercase (c : Char) : Bool :=
  if c.toNat < 0x80 then c.isUpper
  else uppercaseRuns.any fun r => (r.image? c.toNat).isSome

/-- The full uppercase form of a character, which may be several characters. -/
def toUppercase (c : Char) : List Char :=
  if c.toNat < 0x80 then [c.toUpper]
  else match longUppercaseForms.lookup c.toNat with
    | some form => form.map Char.ofNat
    | none => [Char.ofNat ((uppercaseForms.findSome? fun r => r.image? c.toNat).getD c.toNat)]

/-- The least of the characters that differ from `c` in case only, by simple case folding. -/
def foldCase (c : Char) : Char :=
  Char.ofNat ((foldingRuns.findSome? fun r => r.image? c.toNat).getD c.toNat)

/-- All characters that differ from `c` in case only, `c` among them. -/
def caseVariants (c : Char) : List Char :=
  let least := foldCase c
  least :: foldingRuns.filterMap fun r => (r.preimage? least.toNat).map Char.ofNat

/-- The code points of the run, each with the one it is sent to. -/
def CaseRun.pairs (r : CaseRun) : List (Nat × Nat) :=
  (List.range ((r.last - r.first) / r.step + 1)).map fun i =>
    (r.first + i * r.step, r.target + i * r.step)

/-- All code points that are not the least of their case variants, each with the least one. -/
def foldingPairs : List (Nat × Nat) :=
  foldingRuns.flatMap CaseRun.pairs

/-- The set together with all case variants of its elements. -/
def CodeSet.closeUnderCase (s : CodeSet) : CodeSet :=
  let met := foldingPairs.filter fun (n, least) => s.containsCode n || s.containsCode least
  let leasts := CodeSet.ofCodes (met.map (·.2))
  let variants := (foldingPairs.filter fun (_, least) => leasts.containsCode least).map (·.1)
  s.union (leasts.union (.ofCodes variants))

/-- The set together with the other form of its ASCII letters. -/
def CodeSet.closeUnderAsciiCase (s : CodeSet) : CodeSet :=
  let met := (List.range 26).filter fun i => s.containsCode (0x41 + i) || s.containsCode (0x61 + i)
  s.union (.ofCodes (met.flatMap fun i => [0x41 + i, 0x61 + i]))

end FieldShadow.Unicode
