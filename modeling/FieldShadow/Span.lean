/-!
# Places in a source text

Lines and columns count from one, columns in characters, and a line ends at a line feed only.
-/

namespace FieldShadow

/-- A line and a column of a source text. -/
structure Position where
  line : Nat
  column : Nat
  deriving DecidableEq, Repr

/-- The place right after this one on the same line. -/
def Position.next (p : Position) : Position :=
  { p with column := p.column + 1 }

/-- The place of `c`, when `p` is the place of the character before it; after a line feed the
place is column zero of the new line. -/
def Position.after (p : Position) (c : Char) : Position :=
  if c = '\n' then ⟨p.line + 1, 0⟩ else p.next

/-- The place of the last character of `text`, when `p` is the place of the character before it. -/
def Position.afterAll (p : Position) (text : List Char) : Position :=
  text.foldl Position.after p

@[simp] theorem Position.afterAll_nil (p : Position) : p.afterAll [] = p :=
  rfl

@[simp] theorem Position.afterAll_cons (p : Position) (c : Char) (text : List Char) :
    p.afterAll (c :: text) = (p.after c).afterAll text :=
  rfl

/-- A text in two parts is passed part by part. -/
theorem Position.afterAll_append (p : Position) (s t : List Char) :
    p.afterAll (s ++ t) = (p.afterAll s).afterAll t :=
  List.foldl_append

/-- A stretch of source text, from its first to its last character. -/
structure Span where
  start : Position
  stop : Position
  deriving DecidableEq, Repr

/-- The stretch from the start of `s` to the end of `t`. -/
def Span.to (s t : Span) : Span :=
  ⟨s.start, t.stop⟩

/-- The stretch of the single place `p`. -/
def Span.at (p : Position) : Span :=
  ⟨p, p⟩

end FieldShadow
