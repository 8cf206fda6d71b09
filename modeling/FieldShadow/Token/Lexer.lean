import FieldShadow.Token.Piece

/-!
# Reading tokens

A `Scanner` stands between two characters of a source text. `Scanner.next` passes over white space
and comments and reads one token with its place; after a flaw it goes on behind the flawed stretch.
`tokenize` reads a whole text and ends at the first flaw.
-/

namespace FieldShadow

/-- A flaw with the place it begins at. -/
structure LexError where
  flaw : Flaw
  position : Position
  deriving DecidableEq, Repr

/-- The wording of a lexical error. -/
def LexError.message (e : LexError) : String :=
  match e.flaw with
  | .strayCharacter c =>
    "Unexpected character: " ++ String.singleton c ++ " at " ++ toString e.position.line ++ ":" ++
      toString e.position.column
  | .brokenEllipsis => "Unexpected character sequence: .."
  | .openLiteral quote => "Unterminated literal starting with " ++ String.singleton quote
  | .openComment => "Unterminated block comment"

/-- The characters that are still to be read, and the place of the last character that was. -/
structure Scanner where
  rest : List Char
  position : Position
  deriving Repr

namespace Scanner

/-- At the start of a source text. -/
def ofSource (source : String) : Scanner :=
  ⟨source.toList, ⟨1, 0⟩⟩

/-- Reads one piece: what it is, its stretch, and where it leaves the scanner. -/
def piece? (s : Scanner) : Option (Piece × Span × Scanner) :=
  match s.rest with
  | [] => none
  | c :: rest =>
    let (piece, n) := Piece.first c rest
    let stop := s.position.afterAll (c :: rest.take n)
    some (piece, ⟨s.position.next, stop⟩, ⟨rest.drop n, stop⟩)

/-- A piece takes one character at least, so that scanning comes to an end. -/
theorem length_rest_lt_of_piece? {s after : Scanner} {piece : Piece} {span : Span}
    (h : s.piece? = some (piece, span, after)) : after.rest.length < s.rest.length := by
  unfold piece? at h
  split at h
  · simp at h
  · next c rest hrest =>
    simp only [Option.some.injEq, Prod.mk.injEq] at h
    obtain ⟨-, -, rfl⟩ := h
    simp only [hrest, List.length_drop, List.length_cons]
    omega

/-- The end of the text as a token, which stands right after the last character. -/
def eof (s : Scanner) : Lexeme :=
  ⟨.eof, .at s.position.next⟩

/-- Reads the next token; at the end of the text that is `eof`, again and again. -/
def next (s : Scanner) : Except LexError Lexeme × Scanner :=
  match _h : s.piece? with
  | none => (.ok s.eof, s)
  | some (.blank, _, after) => next after
  | some (.token t, span, after) => (.ok ⟨t, span⟩, after)
  | some (.flaw f, span, after) => (.error ⟨f, span.start⟩, after)
termination_by s.rest.length
decreasing_by exact length_rest_lt_of_piece? ‹_›

/-- Reads all tokens that are left, `eof` last, or finds the first flaw. -/
def tokens (s : Scanner) : Except LexError (List Lexeme) :=
  match _h : s.piece? with
  | none => .ok [s.eof]
  | some (.blank, _, after) => tokens after
  | some (.token t, span, after) => (tokens after).map (⟨t, span⟩ :: ·)
  | some (.flaw f, span, _) => .error ⟨f, span.start⟩
termination_by s.rest.length
decreasing_by all_goals exact length_rest_lt_of_piece? ‹_›

end Scanner

/-- The tokens of a source text, `eof` last, or its first flaw. -/
def tokenize (source : String) : Except LexError (List Lexeme) :=
  (Scanner.ofSource source).tokens

end FieldShadow
