import FieldShadow.Token
import FieldShadow.Unicode.Property

/-!
# The pieces of a source text

A source text is cut into pieces from left to right: tokens, the white space and comments between
them, and flaws, which are stretches that no token can be made of. `Piece.first` reads one piece
and says how far it reaches; it looks at characters only, never at their places.
-/

namespace FieldShadow

/-- Why a stretch of text is no token. -/
inductive Flaw where
  | strayCharacter (c : Char)
  | brokenEllipsis
  | openLiteral (quote : Char)
  | openComment
  deriving DecidableEq, Repr

/-- What a stretch of text is. -/
inductive Piece where
  | blank
  | token (t : Token)
  | flaw (f : Flaw)
  deriving DecidableEq, Repr

namespace Piece

/-- A character that an identifier may begin with. -/
def isIdentifierStart (c : Char) : Bool :=
  Unicode.isAlphabetic c || c == '_' || c == '$'

/-- A character that an identifier may go on with. -/
def isIdentifierPart (c : Char) : Bool :=
  Unicode.isAlphanumeric c || c == '_' || c == '$'

/-- A character that a number may go on with: suffixes, hexadecimal digits, underscores and the
decimal point all stay in one literal. -/
def isNumberPart (c : Char) : Bool :=
  Unicode.isAlphanumeric c || c == '_' || c == '.'

/-- A character that an operator may begin with, apart from the slash. -/
def isOperatorStart (c : Char) : Bool :=
  ['+', '-', '*', '%', '&', '|', '^', '!', '~', '?'].contains c

/-- A character that an operator may go on with. Angle brackets close lists of type arguments and
are never part of a longer operator. -/
def isOperatorPart (c : Char) : Bool :=
  c == '=' || c == '/' || isOperatorStart c

/-- The number of characters up to and with the end of a block comment, when `previous` is the
character before them. -/
def blockCommentLength? (previous : Char) : List Char → Option Nat
  | [] => none
  | c :: rest =>
    if previous = '*' ∧ c = '/' then some 1
    else (blockCommentLength? c rest).map (· + 1)

/-- A comment ends in its text. -/
theorem blockCommentLength?_le {previous : Char} {text : List Char} {n : Nat}
    (h : blockCommentLength? previous text = some n) : n ≤ text.length := by
  induction text generalizing previous n with
  | nil => simp [blockCommentLength?] at h
  | cons c rest ih =>
    unfold blockCommentLength? at h
    split at h
    · obtain rfl : 1 = n := by simpa using h
      simp
    · obtain ⟨m, hm, rfl⟩ := Option.map_eq_some_iff.1 h
      have := ih hm
      simp only [List.length_cons]
      omega

/-- How far a quoted literal reaches after its opening quote, and whether it is closed there. A
backslash takes the next character along, whatever it is; a line feed ends an open literal. -/
def quotedLength (quote : Char) : List Char → Nat × Bool
  | [] => (0, false)
  | c :: rest =>
    if c = quote then (1, true)
    else if c = '\\' then
      match rest with
      | [] => (1, false)
      | _ :: after => let (n, closed) := quotedLength quote after; (n + 2, closed)
    else if c = '\n' then (1, false)
    else let (n, closed) := quotedLength quote rest; (n + 1, closed)

theorem quotedLength_le (quote : Char) (text : List Char) :
    (quotedLength quote text).1 ≤ text.length := by
  fun_induction quotedLength quote text <;> simp_all

/-- A token made of the characters from `c` on that satisfy `part`. -/
def run (part : Char → Bool) (make : String → Token) (c : Char) (rest : List Char) : Piece × Nat :=
  let tail := rest.takeWhile part
  (.token (make (String.ofList (c :: tail))), tail.length)

theorem run_le (part : Char → Bool) (make : String → Token) (c : Char) (rest : List Char) :
    (run part make c rest).2 ≤ rest.length :=
  (List.takeWhile_sublist part).length_le

/-- A quoted literal that opens with `quote`. -/
def quoted (quote : Char) (rest : List Char) : Piece × Nat :=
  let (n, closed) := quotedLength quote rest
  (if closed then .token (.literal (String.ofList (quote :: rest.take n)))
    else .flaw (.openLiteral quote), n)

/-- A comment or an operator that begins with a slash. -/
def slash : List Char → Piece × Nat
  | '/' :: rest => (.blank, 1 + (rest.takeWhile (· != '\n')).length)
  | '*' :: rest =>
    match blockCommentLength? '\x00' rest with
    | some n => (.blank, 1 + n)
    | none => (.flaw .openComment, 1 + rest.length)
  | rest => run isOperatorPart .operator '/' rest

theorem slash_le (rest : List Char) : (slash rest).2 ≤ rest.length := by
  fun_cases slash rest with
  | case1 rest =>
    have := (List.takeWhile_sublist (· != '\n') (l := rest)).length_le
    simp only [List.length_cons]
    omega
  | case2 rest n h =>
    have := blockCommentLength?_le h
    simp only [List.length_cons]
    omega
  | case3 rest h =>
    simp only [List.length_cons]
    omega
  | case4 => exact run_le isOperatorPart .operator '/' rest

/-- A dot or an ellipsis; two dots are neither. -/
def dots : List Char → Piece × Nat
  | '.' :: '.' :: _ => (.token .ellipsis, 2)
  | '.' :: _ => (.flaw .brokenEllipsis, 1)
  | _ => (.token .dot, 0)

/-- A colon or the operator made of two. -/
def colons : List Char → Piece × Nat
  | ':' :: _ => (.token (.operator "::"), 1)
  | _ => (.token .colon, 0)

/-- An equals sign or the operator made of two. -/
def equals : List Char → Piece × Nat
  | '=' :: _ => (.token (.operator "=="), 1)
  | _ => (.token .equal, 0)

/-- The first piece of the text `c :: rest`, and how many characters of `rest` belong to it. -/
def first (c : Char) (rest : List Char) : Piece × Nat :=
  if Unicode.isWhiteSpace c then (.blank, 0)
  else match c with
    | '{' => (.token .leftBrace, 0)
    | '}' => (.token .rightBrace, 0)
    | '(' => (.token .leftParen, 0)
    | ')' => (.token .rightParen, 0)
    | '[' => (.token .leftBracket, 0)
    | ']' => (.token .rightBracket, 0)
    | ',' => (.token .comma, 0)
    | ';' => (.token .semicolon, 0)
    | '@' => (.token .at, 0)
    | '<' => (.token .less, 0)
    | '>' => (.token .greater, 0)
    | '.' => dots rest
    | ':' => colons rest
    | '=' => equals rest
    | '/' => slash rest
    | '"' => quoted '"' rest
    | '\'' => quoted '\'' rest
    | c =>
      if isOperatorStart c then run isOperatorPart .operator c rest
      else if c.isDigit then run isNumberPart .literal c rest
      else if isIdentifierStart c then run isIdentifierPart .ofWord c rest
      else (.flaw (.strayCharacter c), 0)

/-- A piece lies within the text that it is read from. -/
theorem first_le (c : Char) (rest : List Char) : (first c rest).2 ≤ rest.length := by
  unfold first
  split
  · exact Nat.zero_le _
  · split <;> try exact Nat.zero_le _
    · unfold dots
      split <;> simp
    · unfold colons
      split <;> simp
    · unfold equals
      split <;> simp
    · exact slash_le rest
    · exact quotedLength_le '"' rest
    · exact quotedLength_le '\'' rest
    · split
      · exact run_le _ _ _ _
      · split
        · exact run_le _ _ _ _
        · split
          · exact run_le _ _ _ _
          · exact Nat.zero_le _

end Piece

end FieldShadow
