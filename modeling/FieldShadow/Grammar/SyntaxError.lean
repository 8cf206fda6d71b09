import FieldShadow.Token

/-!
# Syntax errors

A syntax error names what the grammar asked for, the token that stood there instead, and its place.
All wording is in this module.
-/

namespace FieldShadow

/-- A token that the grammar asks for at one kind of place. -/
inductive Mark where
  | annotationSign
  | typeBodyOpen
  | typeBodyClose
  | enumBodyOpen
  | enumBodyClose
  | blockOpen
  | blockClose
  | switchOpen
  | switchClose
  | parametersOpen
  | parametersClose
  | argumentsOpen
  | argumentsClose
  | forOpen
  | forClose
  | catchOpen
  | catchClose
  | fieldEnd
  | annotationDefaultEnd
  | localEnd
  | statementEnd
  | expressionEnd
  | doWhileEnd
  | forInitEnd
  | forConditionEnd
  | doWhile
  | caseEnd
  | forEachColon
  | creation
  deriving DecidableEq, Repr

/-- The token of a mark. -/
def Mark.token : Mark → Token
  | .annotationSign => .at
  | .typeBodyOpen | .enumBodyOpen | .blockOpen | .switchOpen => .leftBrace
  | .typeBodyClose | .enumBodyClose | .blockClose | .switchClose => .rightBrace
  | .parametersOpen | .argumentsOpen | .forOpen | .catchOpen => .leftParen
  | .parametersClose | .argumentsClose | .forClose | .catchClose => .rightParen
  | .fieldEnd | .annotationDefaultEnd | .localEnd | .statementEnd | .expressionEnd | .doWhileEnd
  | .forInitEnd | .forConditionEnd => .semicolon
  | .doWhile => .keyword .while
  | .caseEnd | .forEachColon => .colon
  | .creation => .keyword .new

/-- What a mark is asked for. -/
def Mark.purpose : Mark → String
  | .annotationSign => " to start an annotation"
  | .typeBodyOpen => " to open a type body"
  | .typeBodyClose => " to close a type body"
  | .enumBodyOpen => " to open an enum body"
  | .enumBodyClose => " to close an enum body"
  | .blockOpen => " at start of block"
  | .blockClose => " at end of block"
  | .switchOpen => " to open a switch body"
  | .switchClose => " to close a switch body"
  | .parametersOpen => " to open a parameter list"
  | .parametersClose => " to close a parameter list"
  | .argumentsOpen => ""
  | .argumentsClose => ""
  | .forOpen => " after 'for'"
  | .forClose => " to close for header"
  | .catchOpen => " after 'catch'"
  | .catchClose => " after catch parameter"
  | .fieldEnd => " after field declaration"
  | .annotationDefaultEnd => " after annotation default"
  | .localEnd => " after local variable declaration"
  | .statementEnd => " after statement"
  | .expressionEnd => " after expression statement"
  | .doWhileEnd => " after do-while"
  | .forInitEnd => " after for initializer"
  | .forConditionEnd => " after for condition"
  | .doWhile => " after do body"
  | .caseEnd => " after case label"
  | .forEachColon => " in for-each header"
  | .creation => ""

/-- What an identifier is asked for as. -/
inductive NameRole where
  | annotationType
  | type
  | enumConstant
  | constructor
  | member
  | parameter
  | variable
  | loopVariable
  | catchParameter
  deriving DecidableEq, Repr

/-- The wording of a role. -/
def NameRole.text : NameRole → String
  | .annotationType => "annotation name"
  | .type => "type name"
  | .enumConstant => "enum constant"
  | .constructor => "constructor name"
  | .member => "member name"
  | .parameter => "parameter name"
  | .variable => "variable name"
  | .loopVariable => "loop variable"
  | .catchParameter => "catch parameter"

/-- A construct that the text may end inside of. -/
inductive Enclosure where
  | typeBody
  | methodHeader
  | block
  | switchBody
  | expression
  deriving DecidableEq, Repr

/-- The wording of an enclosing construct. -/
def Enclosure.text : Enclosure → String
  | .typeBody => "type body"
  | .methodHeader => "method header"
  | .block => "block"
  | .switchBody => "switch"
  | .expression => "expression"

/-- What the grammar asked for and did not get. -/
inductive Demand where
  | mark (m : Mark)
  | name (role : NameRole)
  | type
  | typeArguments
  | typeBody
  | typeDeclaration
  | balancedBrackets
  | directiveEnd
  | localVariable
  | more (inside : Enclosure)
  deriving DecidableEq, Repr

/-- The wording of a demand. -/
def Demand.text : Demand → String
  | .mark m =>
    "Expected " ++ m.token.describe ++ ". Expected '" ++ m.token.spelling ++ "'" ++ m.purpose
  | .name role => "Expected " ++ role.text
  | .type => "Expected type"
  | .typeArguments => "Malformed type arguments"
  | .typeBody => "Expected '\x7b' to open a type body"
  | .typeDeclaration => "Expected class, interface, enum or annotation declaration"
  | .balancedBrackets => "Unbalanced brackets"
  | .directiveEnd => "Expected ';'"
  | .localVariable => "Malformed local variable declaration"
  | .more inside => "Unexpected end of input in " ++ inside.text

/-- A demand that was not met, with the token that stood in its place. -/
structure SyntaxError where
  demand : Demand
  got : Token
  position : Position
  deriving DecidableEq, Repr

/-- The wording of a syntax error. -/
def SyntaxError.message (e : SyntaxError) : String :=
  let place := e.got.describe ++ " at " ++ toString e.position.line ++ ":" ++
    toString e.position.column
  match e.demand with
  | .typeDeclaration => e.demand.text ++ ", got " ++ place
  | _ => e.demand.text ++ " (got " ++ place ++ ")"

end FieldShadow
