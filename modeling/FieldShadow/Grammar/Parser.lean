import FieldShadow.Grammar.Body
import FieldShadow.Token.Lexer

/-!
# Compilation units

A compilation unit is a row of directives and type declarations up to the end of the text. A
`Parser` reads units from one token sequence: after a unit it stands at the end, so that the next
one is empty, and after an error it answers with that error again and again.
-/

namespace FieldShadow

/-- Reads directives and type declarations up to the end of the text. -/
def Cursor.declarations (c : Cursor) : Except SyntaxError (From c (List Outline)) :=
  match c.view with
  | .stop => return c.stay []
  | .token .semicolon _ c₁ h₁ => do
    let ⟨others, c₂, h₂⟩ ← c₁.declarations
    return ⟨others, c₂, (h₂.trans_lt h₁).le⟩
  | .token (.keyword .package) _ _ _ | .token (.keyword .import) _ _ _ => do
    let ⟨_, c₁, h₁⟩ ← c.directive
    let ⟨others, c₂, h₂⟩ ← c₁.declarations
    return ⟨others, c₂, (h₂.trans_lt h₁).le⟩
  | _ => do
    let ⟨ms, c₁, h₁⟩ ← c.modifiers
    -- a package directive may carry annotations
    if c₁.current = .keyword .package then
      let ⟨_, c₂, h₂⟩ ← c₁.directive
      let ⟨others, c₃, h₃⟩ ← c₂.declarations
      return ⟨others, c₃, ((h₃.trans_lt h₂).trans_le h₁).le⟩
    else
      let ⟨first, c₂, h₂⟩ ← c₁.typeDeclaration ms
      let ⟨others, c₃, h₃⟩ ← c₂.declarations
      return ⟨first :: others, c₃, ((h₃.trans_lt h₂).trans_le h₁).le⟩
termination_by c.remaining

/-- Why a text has no syntax tree. -/
inductive ParseError where
  | lexical (e : LexError)
  | grammar (e : SyntaxError)
  deriving DecidableEq, Repr

/-- The wording of a parse error. -/
def ParseError.message : ParseError → String
  | .lexical e => e.message
  | .grammar e => e.message

/-- A parser with the rest of its tokens, and its first error. -/
structure Parser where
  cursor : Cursor
  error? : Option ParseError

namespace Parser

/-- A parser of some tokens. -/
def ofLexemes (lexemes : List Lexeme) : Parser :=
  ⟨.ofLexemes lexemes, none⟩

/-- A parser of the tokens that a scanner has left. -/
def ofScanner (s : Scanner) : Parser :=
  match s.tokens with
  | .ok lexemes => ofLexemes lexemes
  | .error e => ⟨.ofLexemes [], some (.lexical e)⟩

/-- Reads a compilation unit. -/
def next (p : Parser) : Except ParseError SyntaxTree × Parser :=
  match p.error? with
  | some e => (.error e, p)
  | none =>
    match p.cursor.declarations with
    | .ok r => (.ok (.ofOutlines r.value), ⟨r.rest, none⟩)
    | .error e => (.error (.grammar e), ⟨p.cursor, some (.grammar e)⟩)

end Parser

/-- The syntax tree of a source text. -/
def SyntaxTree.ofSource (source : String) : Except ParseError SyntaxTree :=
  (Parser.ofScanner (.ofSource source)).next.1

end FieldShadow
