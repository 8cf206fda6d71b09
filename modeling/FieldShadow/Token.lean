import FieldShadow.Span
import FieldShadow.Text.Quoted

/-!
# Tokens

The words and marks of a Java source text. Declaration and statement words, modifiers and
punctuation have a token each; what expressions are made of is kept as text, since expressions
are never read.
-/

namespace FieldShadow

/-- The words that may stand in front of a declaration. -/
inductive Modifier where
  | public_
  | protected_
  | private_
  | static
  | abstract
  | final
  | native
  | synchronized
  | transient
  | volatile
  | strictfp
  | default
  deriving DecidableEq, Repr

/-- The spelling of a modifier. -/
def Modifier.spelling : Modifier → String
  | .public_ => "public"
  | .protected_ => "protected"
  | .private_ => "private"
  | .static => "static"
  | .abstract => "abstract"
  | .final => "final"
  | .native => "native"
  | .synchronized => "synchronized"
  | .transient => "transient"
  | .volatile => "volatile"
  | .strictfp => "strictfp"
  | .default => "default"

/-- The name a modifier is shown by. -/
def Modifier.name : Modifier → String
  | .public_ => "Public"
  | .protected_ => "Protected"
  | .private_ => "Private"
  | .static => "Static"
  | .abstract => "Abstract"
  | .final => "Final"
  | .native => "Native"
  | .synchronized => "Synchronized"
  | .transient => "Transient"
  | .volatile => "Volatile"
  | .strictfp => "Strictfp"
  | .default => "Default"

/-- All modifiers. -/
def Modifier.all : List Modifier :=
  [.public_, .protected_, .private_, .static, .abstract, .final, .native, .synchronized,
    .transient, .volatile, .strictfp, .default]

/-- The reserved words that open declarations and statements, and the two that matter inside
expressions. -/
inductive Keyword where
  | package
  | import
  | class_
  | interface
  | enum
  | void
  | if
  | else
  | for
  | while
  | do
  | switch
  | case
  | try
  | catch
  | finally
  | return
  | throw
  | break
  | continue
  | assert
  | new
  | this
  deriving DecidableEq, Repr

/-- The spelling of a keyword. -/
def Keyword.spelling : Keyword → String
  | .package => "package"
  | .import => "import"
  | .class_ => "class"
  | .interface => "interface"
  | .enum => "enum"
  | .void => "void"
  | .if => "if"
  | .else => "else"
  | .for => "for"
  | .while => "while"
  | .do => "do"
  | .switch => "switch"
  | .case => "case"
  | .try => "try"
  | .catch => "catch"
  | .finally => "finally"
  | .return => "return"
  | .throw => "throw"
  | .break => "break"
  | .continue => "continue"
  | .assert => "assert"
  | .new => "new"
  | .this => "this"

/-- The name a keyword is shown by. -/
def Keyword.name : Keyword → String
  | .package => "Package"
  | .import => "Import"
  | .class_ => "Class"
  | .interface => "Interface"
  | .enum => "Enum"
  | .void => "Void"
  | .if => "If"
  | .else => "Else"
  | .for => "For"
  | .while => "While"
  | .do => "Do"
  | .switch => "Switch"
  | .case => "Case"
  | .try => "Try"
  | .catch => "Catch"
  | .finally => "Finally"
  | .return => "Return"
  | .throw => "Throw"
  | .break => "Break"
  | .continue => "Continue"
  | .assert => "Assert"
  | .new => "New"
  | .this => "This"

/-- All keywords. -/
def Keyword.all : List Keyword :=
  [.package, .import, .class_, .interface, .enum, .void, .if, .else, .for, .while, .do, .switch,
    .case, .try, .catch, .finally, .return, .throw, .break, .continue, .assert, .new, .this]

/-- A token of a source text. `operator` holds every operator without a token of its own, and
`eof` stands for the end of the text. -/
inductive Token where
  | keyword (word : Keyword)
  | modifier (word : Modifier)
  | identifier (name : String)
  | literal (text : String)
  | operator (text : String)
  | leftBrace
  | rightBrace
  | leftParen
  | rightParen
  | leftBracket
  | rightBracket
  | semicolon
  | comma
  | dot
  | ellipsis
  | at
  | colon
  | less
  | greater
  | equal
  | eof
  deriving DecidableEq, Repr

namespace Token

/-- The kind of a token, as it is shown. -/
def kindName : Token → String
  | .keyword word => word.name
  | .modifier word => word.name
  | .identifier _ => "Identifier"
  | .literal _ => "Literal"
  | .operator _ => "Operator"
  | .leftBrace => "LeftBrace"
  | .rightBrace => "RightBrace"
  | .leftParen => "LeftParen"
  | .rightParen => "RightParen"
  | .leftBracket => "LeftBracket"
  | .rightBracket => "RightBracket"
  | .semicolon => "Semicolon"
  | .comma => "Comma"
  | .dot => "Dot"
  | .ellipsis => "Ellipsis"
  | .at => "At"
  | .colon => "Colon"
  | .less => "Less"
  | .greater => "Greater"
  | .equal => "Equal"
  | .eof => "EOF"

/-- The text that tokens of the open kinds carry. -/
def payload? : Token → Option String
  | .identifier text => some text
  | .literal text => some text
  | .operator text => some text
  | _ => none

/-- A token as messages show it: its kind, and its text in quotes if it carries one. -/
def describe (t : Token) : String :=
  match t.payload? with
  | some text => t.kindName ++ "(" ++ Text.quote text ++ ")"
  | none => t.kindName

/-- The text of a token in a source; the end of the text has none. -/
def spelling : Token → String
  | .keyword word => word.spelling
  | .modifier word => word.spelling
  | .identifier text => text
  | .literal text => text
  | .operator text => text
  | .leftBrace => "\x7b"
  | .rightBrace => "\x7d"
  | .leftParen => "("
  | .rightParen => ")"
  | .leftBracket => "["
  | .rightBracket => "]"
  | .semicolon => ";"
  | .comma => ","
  | .dot => "."
  | .ellipsis => "..."
  | .at => "@"
  | .colon => ":"
  | .less => "<"
  | .greater => ">"
  | .equal => "="
  | .eof => ""

/-- The words that are no identifiers, with their tokens. The words for constants are literals;
`super` and `instanceof` occur inside expressions only and are operators. -/
def reservedWords : List (String × Token) :=
  Keyword.all.map (fun word => (word.spelling, .keyword word)) ++
    Modifier.all.map (fun word => (word.spelling, .modifier word)) ++
    ["true", "false", "null"].map (fun word => (word, .literal word)) ++
    ["super", "instanceof"].map (fun word => (word, .operator word))

/-- The token of a whole word. -/
def ofWord (word : String) : Token :=
  (reservedWords.lookup word).getD (.identifier word)

/-- Whether the token opens a bracket of any of the three kinds. -/
def opens : Token → Bool
  | .leftParen | .leftBracket | .leftBrace => true
  | _ => false

/-- Whether the token closes a bracket of any of the three kinds. -/
def closes : Token → Bool
  | .rightParen | .rightBracket | .rightBrace => true
  | _ => false

end Token

/-- A token with the stretch of text it was read from. -/
structure Lexeme where
  token : Token
  span : Span
  deriving DecidableEq, Repr

end FieldShadow
