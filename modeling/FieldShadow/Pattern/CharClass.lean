import FieldShadow.Unicode.Property
import FieldShadow.Unicode.Case

/-!
# Classes of characters

What a single place of a pattern accepts: a range, a named class, or a combination of those, with
case ignored where the pattern says so. Each class can be asked about one character, and tabulated
as a set of code points.
-/

namespace FieldShadow.Pattern

open Unicode (CodeSet)

/-- The classes that have a name. The first three come in a Unicode and an ASCII form. -/
inductive NamedClass where
  | digit (ascii : Bool)
  | space (ascii : Bool)
  | word (ascii : Bool)
  | alnum
  | alpha
  | anyAscii
  | blank
  | control
  | graph
  | lower
  | print
  | punct
  | upper
  | hexDigit
  | lineFeed
  | lineEnd
  | anything
  deriving DecidableEq, Repr

namespace NamedClass

/-- Whether a character belongs to a named class. -/
def contains (k : NamedClass) (c : Char) : Bool :=
  let n := c.toNat
  match k with
  | .digit false => Unicode.isDecimalDigit c
  | .digit true => c.isDigit
  | .space false => Unicode.isWhiteSpace c
  | .space true => (9 ≤ n && n ≤ 13) || n == 32
  | .word false => Unicode.isWordChar c
  | .word true => c.isAlphanum || c == '_'
  | .alnum => c.isAlphanum
  | .alpha => c.isAlpha
  | .anyAscii => n < 0x80
  | .blank => c == ' ' || c == '\t'
  | .control => n < 0x20 || n == 0x7F
  | .graph => 0x21 ≤ n && n ≤ 0x7E
  | .lower => c.isLower
  | .print => 0x20 ≤ n && n ≤ 0x7E
  | .punct => 0x21 ≤ n && n ≤ 0x7E && !c.isAlphanum
  | .upper => c.isUpper
  | .hexDigit => c.isDigit || ('a' ≤ c && c ≤ 'f') || ('A' ≤ c && c ≤ 'F')
  | .lineFeed => c == '\n'
  | .lineEnd => c == '\n' || c == '\r'
  | .anything => true

/-- The code points of a named class. -/
def codes : NamedClass → CodeSet
  | digit false => Unicode.decimalDigits
  | digit true => ⟨#[0x30, 0x3A]⟩
  | space false => Unicode.whiteSpaces
  | space true => ⟨#[0x9, 0xE, 0x20, 0x21]⟩
  | word false => Unicode.wordChars
  | word true => ⟨#[0x30, 0x3A, 0x41, 0x5B, 0x5F, 0x60, 0x61, 0x7B]⟩
  | alnum => ⟨#[0x30, 0x3A, 0x41, 0x5B, 0x61, 0x7B]⟩
  | alpha => ⟨#[0x41, 0x5B, 0x61, 0x7B]⟩
  | anyAscii => ⟨#[0, 0x80]⟩
  | blank => ⟨#[0x9, 0xA, 0x20, 0x21]⟩
  | control => ⟨#[0, 0x20, 0x7F, 0x80]⟩
  | graph => ⟨#[0x21, 0x7F]⟩
  | lower => ⟨#[0x61, 0x7B]⟩
  | print => ⟨#[0x20, 0x7F]⟩
  | punct => ⟨#[0x21, 0x30, 0x3A, 0x41, 0x5B, 0x61, 0x7B, 0x7F]⟩
  | upper => ⟨#[0x41, 0x5B]⟩
  | hexDigit => ⟨#[0x30, 0x3A, 0x41, 0x47, 0x61, 0x67]⟩
  | lineFeed => ⟨#[0xA, 0xB]⟩
  | lineEnd => ⟨#[0xA, 0xB, 0xD, 0xE]⟩
  | anything => CodeSet.scalars

/-- Whether all characters of the class are ASCII. -/
def isAscii : NamedClass → Bool
  | digit ascii => ascii
  | space ascii => ascii
  | word ascii => ascii
  | anything => false
  | _ => true

/-- The named classes that stand inside brackets as `[:name:]`. -/
def ofName? : String → Option NamedClass
  | "alnum" => some .alnum
  | "alpha" => some .alpha
  | "ascii" => some .anyAscii
  | "blank" => some .blank
  | "cntrl" => some .control
  | "digit" => some (.digit true)
  | "graph" => some .graph
  | "lower" => some .lower
  | "print" => some .print
  | "punct" => some .punct
  | "space" => some (.space true)
  | "upper" => some .upper
  | "word" => some (.word true)
  | "xdigit" => some .hexDigit
  | _ => none

end NamedClass

/-- How letters of different case are taken for each other. -/
inductive CaseRule where
  | exact
  | asciiFolded
  | folded
  deriving DecidableEq, Repr

/-- The characters that count as `c` under a case rule. -/
def CaseRule.variants (r : CaseRule) (c : Char) : List Char :=
  match r with
  | .exact => [c]
  | .asciiFolded => [c, c.toLower, c.toUpper]
  | .folded => Unicode.caseVariants c

/-- The code points that count as one of the set under a case rule. -/
def CaseRule.close (r : CaseRule) (s : CodeSet) : CodeSet :=
  match r with
  | .exact => s
  | .asciiFolded => s.closeUnderAsciiCase
  | .folded => s.closeUnderCase

/-- The operators between the parts of a bracketed class. -/
inductive SetOp where
  | intersection
  | difference
  | symmetricDifference
  deriving DecidableEq, Repr

/-- Combines two sets of code points. -/
def SetOp.combine (op : SetOp) (s t : CodeSet) : CodeSet :=
  match op with
  | .intersection => s.inter t
  | .difference => s.diff t
  | .symmetricDifference => s.symmDiff t

/-- A class of characters. -/
inductive CharClass where
  | none
  | single (c : Char) (rule : CaseRule)
  | range (low high : Char)
  | named (k : NamedClass) (rule : CaseRule) (negated : Bool)
  | union (parts : List CharClass)
  | combined (op : SetOp) (rule : CaseRule) (left right : CharClass)
  | bracketed (negated : Bool) (rule : CaseRule) (inner : CharClass)
  deriving Repr

namespace CharClass

mutual

/-- Whether a character belongs to a class. Case is ignored before a class is negated, and before an
operator combines two classes. -/
def contains : CharClass → Char → Bool
  | .none, _ => false
  | .single d rule, c => (rule.variants c).contains d
  | .range low high, c => low ≤ c && c ≤ high
  | .named k rule negated, c => (rule.variants c).any k.contains != negated
  | .union parts, c => anyContains parts c
  | .combined op rule left right, c =>
    let l := (rule.variants c).any fun d => contains left d
    let r := (rule.variants c).any fun d => contains right d
    match op with
    | .intersection => l && r
    | .difference => l && !r
    | .symmetricDifference => l != r
  | .bracketed negated rule inner, c =>
    ((rule.variants c).any fun d => contains inner d) != negated

/-- Whether a character belongs to one of the classes. -/
def anyContains : List CharClass → Char → Bool
  | [], _ => false
  | part :: parts, c => contains part c || anyContains parts c

end

/-- The set or, if it is negated, the characters outside it. -/
def negateIf (negated : Bool) (s : CodeSet) : CodeSet :=
  if negated then s.complement else s

mutual

/-- The code points of a class. -/
def codes : CharClass → CodeSet
  | .none => .empty
  | .single c rule => .ofCodes ((rule.variants c).map Char.toNat)
  | .range low high => .interval low high
  | .named k rule negated => negateIf negated (rule.close k.codes)
  | .union parts => unionCodes parts
  | .combined op rule left right => op.combine (rule.close (codes left)) (rule.close (codes right))
  | .bracketed negated rule inner => negateIf negated (rule.close (codes inner))

/-- The code points of all of some classes. -/
def unionCodes : List CharClass → CodeSet
  | [] => .empty
  | part :: parts => (codes part).union (unionCodes parts)

end

mutual

/-- Whether a class is built from ASCII alone, as it must be where a pattern is read byte by byte. A
negated class is not, nor is a combined class with a part that is not. -/
def isAscii : CharClass → Bool
  | .none => true
  | .single c _ => c.toNat < 0x80
  | .range _ high => high.toNat < 0x80
  | .named k _ negated => k.isAscii && !negated
  | .union parts => allAscii parts
  | .combined _ _ left right => isAscii left && isAscii right
  | .bracketed negated _ inner => isAscii inner && !negated

/-- Whether some classes are all built from ASCII. -/
def allAscii : List CharClass → Bool
  | [] => true
  | part :: parts => isAscii part && allAscii parts

end

mutual

/-- How deeply the parts of a class are nested. -/
def depth : CharClass → Nat
  | .none | .single .. | .range .. | .named .. => 0
  | .union parts => 1 + maxDepth parts
  | .combined _ _ left right => 1 + max (depth left) (depth right)
  | .bracketed _ _ inner => 1 + depth inner

/-- The greatest depth of some classes. -/
def maxDepth : List CharClass → Nat
  | [] => 0
  | part :: parts => max (depth part) (maxDepth parts)

end

/-- The class of some parts; a single part stands for itself. -/
def ofParts : List CharClass → CharClass
  | [] => .none
  | [part] => part
  | parts => .union parts

end CharClass

end FieldShadow.Pattern
