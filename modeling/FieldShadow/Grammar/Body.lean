import FieldShadow.Grammar.Heading

/-!
# Type bodies, blocks and expressions

The part of the grammar that nests. Expressions are passed over, but the bodies of anonymous
classes inside them are read, since they declare methods, parameters and variables of their own;
everything read inside an expression hangs below the node that the expression belongs to.

Each function consumes tokens before it comes back to itself, or calls one of lower rank at the
same place; the rank is the summand in its measure.
-/

namespace FieldShadow.Cursor

/-- What may stand behind the name of a variable that a declaration begins with. -/
def declaratorFollow : List Token :=
  [.equal, .semicolon, .comma, .leftBracket]

/-- Refuses a statement that begins with a primitive type and is no declaration; only a class
literal such as `int.class` may begin so. -/
def primitiveStart (c : Cursor) : Except SyntaxError Unit :=
  match c.current with
  | .identifier name =>
    if TypeRef.primitiveNames.contains name then do
      let ⟨_, c₁, _⟩ ← c.typeRef
      if c₁.current = .dot then return ()
      else
        let ⟨_, c₂, _⟩ ← c₁.name .variable
        throw (c₂.fault .localVariable)
    else return ()
  | _ => return ()

/-- Passes the clauses behind a parameter list up to a body, a semicolon or a default value. -/
def methodClauses (c : Cursor) : Except SyntaxError (From c Unit) :=
  match c.view with
  | .stop => .error (c.fault (.more .methodHeader))
  | .token t _ rest h =>
    if t = .leftBrace ∨ t = .semicolon ∨ t = .modifier .default then .ok (c.stay ())
    else do
      let ⟨_, c', h'⟩ ← rest.methodClauses
      return ⟨(), c', (h'.trans_lt h).le⟩
termination_by c.remaining

/-- Reads the further alternatives of the type of a `catch` parameter. -/
def catchAlternatives (c : Cursor) : Except SyntaxError (From c Unit) :=
  match c.accept? (.operator "|") with
  | none => return c.stay ()
  | some ⟨_, c₁, h₁⟩ => do
    let ⟨_, c₂, h₂⟩ ← c₁.typeRef
    let ⟨_, c₃, h₃⟩ ← c₂.catchAlternatives
    return ⟨(), c₃, ((h₃.trans_lt h₂).trans h₁).le⟩
termination_by c.remaining

/-- Reads the parameter of a `catch` clause with its parentheses. -/
def catchParameter (c : Cursor) : Except SyntaxError (After c Outline) := do
  let ⟨_, c₁, h₁⟩ ← c.expect .catchOpen
  let ⟨ms, c₂, h₂⟩ ← c₁.modifiers
  let ⟨type, c₃, h₃⟩ ← c₂.typeRef
  let ⟨_, c₄, h₄⟩ ← c₃.catchAlternatives
  let ⟨(name, span), c₅, h₅⟩ ← c₄.name .catchParameter
  let ⟨_, c₆, h₆⟩ ← c₅.expect .catchClose
  return ⟨.leaf (.parameterDef name ms type) span, c₆,
    ((((h₆.trans h₅).trans_le h₄).trans h₃).trans_le h₂).trans h₁⟩

mutual

/-- Reads a type declaration behind its modifiers. -/
def typeDeclaration (c : Cursor) (ms : List Modifier) :
    Except SyntaxError (After c Outline) := do
  let ⟨(kind, span), c₁, h₁⟩ ← c.typeHeading ms
  let ⟨body, c₂, h₂⟩ ← match kind with
    | .enumDef .. => c₁.enumBody
    | _ => c₁.typeBody
  return ⟨.node kind span [body], c₂, h₂.trans h₁⟩
termination_by 8 * c.remaining

/-- Reads the body of a class, an interface, an annotation type, an enum constant or an anonymous
class. -/
def typeBody (c : Cursor) : Except SyntaxError (After c Outline) := do
  let ⟨opening, c₁, h₁⟩ ← c.expect .typeBodyOpen
  let ⟨members, c₂, h₂⟩ ← c₁.members
  let ⟨_, c₃, h₃⟩ ← c₂.expect .typeBodyClose
  return ⟨.node .typeBody opening members, c₃, (h₃.trans_le h₂).trans h₁⟩
termination_by 8 * c.remaining

/-- Reads the body of an enum. -/
def enumBody (c : Cursor) : Except SyntaxError (After c Outline) := do
  let ⟨opening, c₁, h₁⟩ ← c.expect .enumBodyOpen
  let ⟨members, c₂, h₂⟩ ← c₁.enumConstants
  let ⟨_, c₃, h₃⟩ ← c₂.expect .enumBodyClose
  return ⟨.node .typeBody opening members, c₃, (h₃.trans_le h₂).trans h₁⟩
termination_by 8 * c.remaining

/-- Reads the constants of an enum, and behind a semicolon its members. -/
def enumConstants (c : Cursor) : Except SyntaxError (From c (List Outline)) :=
  match c.view with
  | .token .semicolon _ c₁ h₁ => do
    let ⟨members, c₂, h₂⟩ ← c₁.members
    return ⟨members, c₂, (h₂.trans_lt h₁).le⟩
  | .token .rightBrace _ _ _ => return c.stay []
  | .token .comma _ c₁ h₁ => do
    let ⟨others, c₂, h₂⟩ ← c₁.enumConstants
    return ⟨others, c₂, (h₂.trans_lt h₁).le⟩
  | _ => do
    let ⟨constant, c₁, h₁⟩ ← c.enumConstant
    let ⟨others, c₂, h₂⟩ ← c₁.enumConstants
    return ⟨constant :: others, c₂, (h₂.trans_lt h₁).le⟩
termination_by 8 * c.remaining + 1

/-- Reads an enum constant with its arguments and its body. -/
def enumConstant (c : Cursor) : Except SyntaxError (After c Outline) := do
  let ⟨_, c₁, h₁⟩ ← c.modifiers
  let ⟨(name, span), c₂, h₂⟩ ← c₁.name .enumConstant
  let ⟨arguments, c₃, h₃⟩ ←
    if c₂.current = .leftParen then c₂.arguments.map After.toFrom else pure (c₂.stay [])
  let ⟨body, c₄, h₄⟩ ←
    if c₃.current = .leftBrace then do
      let ⟨body, c₄, h₄⟩ ← c₃.typeBody
      pure (⟨[body], c₄, h₄.le⟩ : From c₃ (List Outline))
    else pure (c₃.stay [])
  return ⟨.node (.enumConstant name) span (arguments ++ body), c₄,
    ((h₄.trans h₃).trans_lt h₂).trans_le h₁⟩
termination_by 8 * c.remaining

/-- Reads the members of a type up to the closing brace of its body. -/
def members (c : Cursor) : Except SyntaxError (From c (List Outline)) :=
  match c.view with
  | .stop => .error (c.fault (.more .typeBody))
  | .token .rightBrace _ _ _ => return c.stay []
  | _ => do
    let ⟨first, c₁, h₁⟩ ← c.member
    let ⟨others, c₂, h₂⟩ ← c₁.members
    return ⟨first ++ others, c₂, (h₂.trans_lt h₁).le⟩
termination_by 8 * c.remaining + 3

/-- Reads one member: an initializer, a declaration or a lone semicolon. -/
def member (c : Cursor) : Except SyntaxError (After c (List Outline)) :=
  match c.view with
  | .token .semicolon _ c₁ h₁ => return ⟨[], c₁, h₁⟩
  | .token .leftBrace span _ _ => do
    let ⟨body, c₁, h₁⟩ ← c.block
    return ⟨[.node .instanceInit span [body]], c₁, h₁⟩
  | .token (.modifier .static) span c₁ h₁ =>
    if c₁.current = .leftBrace then do
      let ⟨body, c₂, h₂⟩ ← c₁.block
      return ⟨[.node .staticInit span [body]], c₂, h₂.trans h₁⟩
    else c.memberDeclaration
  | _ => c.memberDeclaration
termination_by 8 * c.remaining + 2

/-- Reads the declaration of a nested type, a constructor, a method or fields. -/
def memberDeclaration (c : Cursor) : Except SyntaxError (After c (List Outline)) := do
  let ⟨ms, c₁, h₁⟩ ← c.modifiers
  if c₁.startsType then
    let ⟨type, c₂, h₂⟩ ← c₁.typeDeclaration ms
    return ⟨[type], c₂, h₂.trans_le h₁⟩
  else
    let ⟨_, c₂, h₂⟩ ← c₁.typeArguments?
    match c₂.current, c₂.following with
    | .identifier _, .leftParen =>
      let ⟨declared, c₃, h₃⟩ ← c₂.constructor ms
      return ⟨[declared], c₃, (h₃.trans_le h₂).trans_le h₁⟩
    | _, _ =>
      let ⟨declared, c₃, h₃⟩ ← c₂.methodOrFields ms
      return ⟨declared, c₃, (h₃.trans_le h₂).trans_le h₁⟩
termination_by 8 * c.remaining + 1

/-- Reads a constructor behind its modifiers. -/
def constructor (c : Cursor) (ms : List Modifier) : Except SyntaxError (After c Outline) := do
  let ⟨(name, span), c₁, h₁⟩ ← c.name .constructor
  let ⟨ps, c₂, h₂⟩ ← c₁.parameters
  let ⟨_, c₃, h₃⟩ ← c₂.header
  let ⟨body, c₄, h₄⟩ ← c₃.block
  return ⟨.node (.constructorDef name ms) span [ps, body], c₄, ((h₄.trans_le h₃).trans h₂).trans h₁⟩
termination_by 8 * c.remaining

/-- Reads a method or fields behind their modifiers. -/
def methodOrFields (c : Cursor) (ms : List Modifier) :
    Except SyntaxError (After c (List Outline)) := do
  let ⟨type, c₁, h₁⟩ ← c.typeRef
  let ⟨(name, span), c₂, h₂⟩ ← c₁.name .member
  if c₂.current = .leftParen then
    let ⟨ps, c₃, h₃⟩ ← c₂.parameters
    let ⟨body, c₄, h₄⟩ ← c₃.methodBody
    return ⟨[.node (.methodDef name ms type) span (ps :: body)], c₄,
      ((h₄.trans h₃).trans h₂).trans h₁⟩
  else
    let ⟨fields, c₃, h₃⟩ ← c₂.declarators ms type name span
    let ⟨_, c₄, h₄⟩ ← c₃.expect .fieldEnd
    return ⟨fields, c₄, ((h₄.trans_le h₃).trans h₂).trans h₁⟩
termination_by 8 * c.remaining

/-- Reads what follows the parameter list of a method: its body, a semicolon, or the default value
of an annotation element. -/
def methodBody (c : Cursor) : Except SyntaxError (After c (List Outline)) := do
  let ⟨_, c₁, h₁⟩ ← c.methodClauses
  match c₁.view with
  | .token .semicolon _ c₂ h₂ => return ⟨[], c₂, h₂.trans_le h₁⟩
  | .token (.modifier .default) _ c₂ h₂ =>
    let ⟨classes, c₃, h₃⟩ ← c₂.expression [.semicolon] 0
    let ⟨_, c₄, h₄⟩ ← c₃.expect .annotationDefaultEnd
    return ⟨classes, c₄, ((h₄.trans_le h₃).trans h₂).trans_le h₁⟩
  | _ =>
    let ⟨body, c₂, h₂⟩ ← c₁.block
    return ⟨[body], c₂, h₂.trans_le h₁⟩
termination_by 8 * c.remaining + 1

/-- Reads declarators that share modifiers and a type, behind the name of the first. -/
def declarators (c : Cursor) (ms : List Modifier) (type : TypeRef) (name : String) (span : Span) :
    Except SyntaxError (From c (List Outline)) := do
  let ⟨type', c₁, h₁⟩ := c.dimensions type
  let ⟨classes, c₂, h₂⟩ ← match c₁.accept? .equal with
    | some ⟨_, c₂, h₂⟩ => do
      let ⟨classes, c₃, h₃⟩ ← c₂.expression [.comma, .semicolon] 0
      pure (⟨classes, c₃, (h₃.trans_lt h₂).le⟩ : From c₁ (List Outline))
    | none => pure (c₁.stay [])
  let declared := Outline.node (.variableDef name ms type') span classes
  match c₂.accept? .comma with
  | some ⟨_, c₃, h₃⟩ =>
    let ⟨(name', span'), c₄, h₄⟩ ← c₃.name .variable
    let ⟨others, c₅, h₅⟩ ← c₄.declarators ms type name' span'
    return ⟨declared :: others, c₅, ((((h₅.trans_lt h₄).trans h₃).trans_le h₂).trans_le h₁).le⟩
  | none => return ⟨[declared], c₂, h₂.trans h₁⟩
termination_by 8 * c.remaining

/-- Reads a block. -/
def block (c : Cursor) : Except SyntaxError (After c Outline) := do
  let ⟨opening, c₁, h₁⟩ ← c.expect .blockOpen
  let ⟨statements, c₂, h₂⟩ ← c₁.statements
  let ⟨_, c₃, h₃⟩ ← c₂.expect .blockClose
  return ⟨.node .block opening statements, c₃, (h₃.trans_le h₂).trans h₁⟩
termination_by 8 * c.remaining

/-- Reads statements up to the closing brace of their block. -/
def statements (c : Cursor) : Except SyntaxError (From c (List Outline)) :=
  match c.view with
  | .stop => .error (c.fault (.more .block))
  | .token .rightBrace _ _ _ => return c.stay []
  | _ => do
    let ⟨first, c₁, h₁⟩ ← c.statement
    let ⟨others, c₂, h₂⟩ ← c₁.statements
    return ⟨first ++ others, c₂, (h₂.trans_lt h₁).le⟩
termination_by 8 * c.remaining + 4

/-- Reads one statement. -/
def statement (c : Cursor) : Except SyntaxError (After c (List Outline)) :=
  match c.view with
  | .token .leftBrace _ _ _ => do
    let ⟨body, c₁, h₁⟩ ← c.block
    return ⟨[body], c₁, h₁⟩
  | .token .semicolon _ c₁ h₁ => return ⟨[], c₁, h₁⟩
  | .token (.keyword .if) _ c₁ h₁ => do
    let ⟨condition, c₂, h₂⟩ ← c₁.arguments
    let ⟨yes, c₃, h₃⟩ ← c₂.statement
    match c₃.accept? (.keyword .else) with
    | some ⟨_, c₄, h₄⟩ =>
      let ⟨no, c₅, h₅⟩ ← c₄.statement
      return ⟨condition ++ yes ++ no, c₅, (((h₅.trans h₄).trans h₃).trans h₂).trans h₁⟩
    | none => return ⟨condition ++ yes, c₃, (h₃.trans h₂).trans h₁⟩
  | .token (.keyword .while) _ c₁ h₁ => do
    let ⟨condition, c₂, h₂⟩ ← c₁.arguments
    let ⟨body, c₃, h₃⟩ ← c₂.statement
    return ⟨condition ++ body, c₃, (h₃.trans h₂).trans h₁⟩
  | .token (.keyword .do) _ c₁ h₁ => do
    let ⟨body, c₂, h₂⟩ ← c₁.statement
    let ⟨_, c₃, h₃⟩ ← c₂.expect .doWhile
    let ⟨condition, c₄, h₄⟩ ← c₃.arguments
    let ⟨_, c₅, h₅⟩ ← c₄.expect .doWhileEnd
    return ⟨body ++ condition, c₅, (((h₅.trans h₄).trans h₃).trans h₂).trans h₁⟩
  | .token (.modifier .synchronized) _ c₁ h₁ =>
    if c₁.current = .leftParen then do
      let ⟨lock, c₂, h₂⟩ ← c₁.arguments
      let ⟨body, c₃, h₃⟩ ← c₂.block
      return ⟨lock ++ [body], c₃, (h₃.trans h₂).trans h₁⟩
    else c.localOrExpression
  | .token (.keyword .switch) _ c₁ h₁ => do
    let ⟨subject, c₂, h₂⟩ ← c₁.arguments
    let ⟨body, c₃, h₃⟩ ← c₂.switchBody
    return ⟨subject ++ [body], c₃, (h₃.trans h₂).trans h₁⟩
  | .token (.keyword .for) _ c₁ h₁ => do
    let ⟨outlines, c₂, h₂⟩ ← c₁.forRest
    return ⟨outlines, c₂, h₂.trans h₁⟩
  | .token (.keyword .try) _ c₁ h₁ => do
    let ⟨outlines, c₂, h₂⟩ ← c₁.tryRest
    return ⟨outlines, c₂, h₂.trans h₁⟩
  | .token (.keyword .return) _ c₁ h₁ | .token (.keyword .throw) _ c₁ h₁
  | .token (.keyword .break) _ c₁ h₁ | .token (.keyword .continue) _ c₁ h₁
  | .token (.keyword .assert) _ c₁ h₁ => do
    let ⟨classes, c₂, h₂⟩ ← c₁.expression [.semicolon] 0
    let ⟨_, c₃, h₃⟩ ← c₂.expect .statementEnd
    return ⟨classes, c₃, (h₃.trans_le h₂).trans h₁⟩
  | .token (.identifier _) _ c₁ h₁ =>
    match c₁.accept? .colon with
    | some ⟨_, c₂, h₂⟩ => do
      let ⟨body, c₃, h₃⟩ ← c₂.statement
      return ⟨body, c₃, (h₃.trans h₂).trans h₁⟩
    | none => c.localOrExpression
  | .token (.keyword .class_) _ _ _ | .token (.keyword .interface) _ _ _
  | .token (.keyword .enum) _ _ _ | .token .at _ _ _
  | .token (.modifier .final) _ _ _ | .token (.modifier .abstract) _ _ _
  | .token (.modifier .static) _ _ _ | .token (.modifier .strictfp) _ _ _ => do
    let ⟨ms, c₁, h₁⟩ ← c.modifiers
    if c₁.startsType then
      let ⟨type, c₂, h₂⟩ ← c₁.typeDeclaration ms
      return ⟨[type], c₂, h₂.trans_le h₁⟩
    else c.localOrExpression
  | _ => c.localOrExpression
termination_by 8 * c.remaining + 3

/-- Reads a declaration of local variables, or passes an expression statement. -/
def localOrExpression (c : Cursor) : Except SyntaxError (After c (List Outline)) :=
  match c.declarationHead? declaratorFollow with
  | some ⟨(ms, type), c₁, h₁⟩ => do
    let ⟨(name, span), c₂, h₂⟩ ← c₁.name .variable
    let ⟨declared, c₃, h₃⟩ ← c₂.declarators ms type name span
    let ⟨_, c₄, h₄⟩ ← c₃.expect .localEnd
    return ⟨declared, c₄, ((h₄.trans_le h₃).trans h₂).trans h₁⟩
  | none => do
    c.primitiveStart
    let ⟨classes, c₁, h₁⟩ ← c.expression [.semicolon] 0
    let ⟨_, c₂, h₂⟩ ← c₁.expect .expressionEnd
    return ⟨classes, c₂, h₂.trans_le h₁⟩
termination_by 8 * c.remaining + 2

/-- Reads the body of a `switch`; all its case groups share one block. -/
def switchBody (c : Cursor) : Except SyntaxError (After c Outline) := do
  let ⟨opening, c₁, h₁⟩ ← c.expect .switchOpen
  let ⟨groups, c₂, h₂⟩ ← c₁.caseGroups
  let ⟨_, c₃, h₃⟩ ← c₂.expect .switchClose
  return ⟨.node .block opening groups, c₃, (h₃.trans_le h₂).trans h₁⟩
termination_by 8 * c.remaining

/-- Reads the labels and statements of a `switch` up to the closing brace of its body. -/
def caseGroups (c : Cursor) : Except SyntaxError (From c (List Outline)) :=
  match c.view with
  | .stop => .error (c.fault (.more .switchBody))
  | .token .rightBrace _ _ _ => return c.stay []
  | .token (.keyword .case) _ c₁ h₁ => do
    let ⟨classes, c₂, h₂⟩ ← c₁.expression [.colon] 0
    let ⟨_, c₃, h₃⟩ ← c₂.expect .caseEnd
    let ⟨others, c₄, h₄⟩ ← c₃.caseGroups
    return ⟨classes ++ others, c₄, (((h₄.trans_lt h₃).trans_le h₂).trans h₁).le⟩
  | .token (.modifier .default) _ c₁ h₁ =>
    match c₁.accept? .colon with
    | some ⟨_, c₂, h₂⟩ => do
      let ⟨others, c₃, h₃⟩ ← c₂.caseGroups
      return ⟨others, c₃, ((h₃.trans_lt h₂).trans h₁).le⟩
    | none => do
      let ⟨first, c₂, h₂⟩ ← c.statement
      let ⟨others, c₃, h₃⟩ ← c₂.caseGroups
      return ⟨first ++ others, c₃, (h₃.trans_lt h₂).le⟩
  | _ => do
    let ⟨first, c₁, h₁⟩ ← c.statement
    let ⟨others, c₂, h₂⟩ ← c₁.caseGroups
    return ⟨first ++ others, c₂, (h₂.trans_lt h₁).le⟩
termination_by 8 * c.remaining + 4

/-- Reads a `for` statement behind its keyword. -/
def forRest (c : Cursor) : Except SyntaxError (After c (List Outline)) := do
  let ⟨opening, c₁, h₁⟩ ← c.expect .forOpen
  let ⟨clauses, c₂, h₂⟩ ← c₁.forClauses opening
  let ⟨_, c₃, h₃⟩ ← c₂.expect .forClose
  let ⟨body, c₄, h₄⟩ ← c₃.statement
  return ⟨clauses ++ body, c₄, ((h₄.trans h₃).trans h₂).trans h₁⟩
termination_by 8 * c.remaining

/-- Reads what stands between the parentheses of a `for` statement. A loop over a collection has its
variable in a clause of its own. -/
def forClauses (c : Cursor) (opening : Span) : Except SyntaxError (After c (List Outline)) :=
  match c.declarationHead? [.colon] with
  | some ⟨(ms, type), c₁, h₁⟩ => do
    let ⟨(name, span), c₂, h₂⟩ ← c₁.name .loopVariable
    let ⟨_, c₃, h₃⟩ ← c₂.expect .forEachColon
    let ⟨classes, c₄, h₄⟩ ← c₃.expression [.rightParen] 0
    let declared := Outline.leaf (.variableDef name ms type) span
    return ⟨[.node .forEachClause opening (declared :: classes)], c₄,
      ((h₄.trans_lt h₃).trans h₂).trans h₁⟩
  | none => do
    let ⟨initializer, c₁, h₁⟩ ← c.forInitializer opening
    let ⟨_, c₂, h₂⟩ ← c₁.expect .forInitEnd
    let ⟨condition, c₃, h₃⟩ ← c₂.expression [.semicolon] 0
    let ⟨_, c₄, h₄⟩ ← c₃.expect .forConditionEnd
    let ⟨update, c₅, h₅⟩ ← c₄.expression [.rightParen] 0
    return ⟨initializer ++ condition ++ update, c₅,
      (((h₅.trans_lt h₄).trans_le h₃).trans h₂).trans_le h₁⟩
termination_by 8 * c.remaining + 3

/-- Reads the initializer of a `for` statement; the variables that it declares are in a clause of
their own. -/
def forInitializer (c : Cursor) (opening : Span) : Except SyntaxError (From c (List Outline)) :=
  match c.declarationHead? declaratorFollow with
  | some ⟨(ms, type), c₁, h₁⟩ => do
    let ⟨(name, span), c₂, h₂⟩ ← c₁.name .loopVariable
    let ⟨declared, c₃, h₃⟩ ← c₂.declarators ms type name span
    return ⟨[.node .forInit opening declared], c₃, ((h₃.trans_lt h₂).trans h₁).le⟩
  | none => c.expression [.semicolon] 0
termination_by 8 * c.remaining + 2

/-- Reads a `try` statement behind its keyword. Resources declare no variables. -/
def tryRest (c : Cursor) : Except SyntaxError (After c (List Outline)) := do
  let ⟨resources, c₁, h₁⟩ ←
    if c.current = .leftParen then c.arguments.map After.toFrom else pure (c.stay [])
  let ⟨body, c₂, h₂⟩ ← c₁.block
  let ⟨handlers, c₃, h₃⟩ ← c₂.catches
  match c₃.accept? (.keyword .finally) with
  | some ⟨_, c₄, h₄⟩ =>
    let ⟨last, c₅, h₅⟩ ← c₄.block
    return ⟨resources ++ [body] ++ handlers ++ [last], c₅,
      (((h₅.trans h₄).trans_le h₃).trans h₂).trans_le h₁⟩
  | none => return ⟨resources ++ [body] ++ handlers, c₃, (h₃.trans_lt h₂).trans_le h₁⟩
termination_by 8 * c.remaining + 1

/-- Reads the `catch` clauses of a `try` statement. -/
def catches (c : Cursor) : Except SyntaxError (From c (List Outline)) :=
  match c.accept? (.keyword .catch) with
  | none => return c.stay []
  | some ⟨clause, c₁, h₁⟩ => do
    let ⟨parameter, c₂, h₂⟩ ← c₁.catchParameter
    let ⟨body, c₃, h₃⟩ ← c₂.block
    let ⟨others, c₄, h₄⟩ ← c₃.catches
    return ⟨.node .catchClause clause [parameter, body] :: others, c₄,
      (((h₄.trans_lt h₃).trans h₂).trans h₁).le⟩
termination_by 8 * c.remaining

/-- Passes an expression or an argument list in parentheses. -/
def arguments (c : Cursor) : Except SyntaxError (After c (List Outline)) := do
  let ⟨_, c₁, h₁⟩ ← c.expect .argumentsOpen
  let ⟨classes, c₂, h₂⟩ ← c₁.expression [.rightParen] 0
  let ⟨_, c₃, h₃⟩ ← c₂.expect .argumentsClose
  return ⟨classes, c₃, (h₃.trans_le h₂).trans h₁⟩
termination_by 8 * c.remaining

/-- Passes an expression, `depth` of whose brackets are open, up to one of the terminators or to
a closing bracket without a partner, neither of which is consumed. What it gives are the anonymous
classes in it. -/
def expression (c : Cursor) (terminators : List Token) (depth : Nat) :
    Except SyntaxError (From c (List Outline)) :=
  match c.view with
  | .stop => .error (c.fault (.more .expression))
  | .token t _ rest h =>
    if depth = 0 ∧ (t ∈ terminators ∨ t.closes) then return c.stay []
    else if t = .keyword .new then do
      let ⟨first, c₁, h₁⟩ ← c.creation
      let ⟨others, c₂, h₂⟩ ← c₁.expression terminators depth
      return ⟨first ++ others, c₂, (h₂.trans_lt h₁).le⟩
    else do
      let depth' := if t.opens then depth + 1 else if t.closes then depth - 1 else depth
      let ⟨classes, c₁, h₁⟩ ← rest.expression terminators depth'
      return ⟨classes, c₁, (h₁.trans_lt h).le⟩
termination_by 8 * c.remaining + 1

/-- Reads the creation of an object: the anonymous classes in its arguments, and the one that it
declares itself if a body stands behind them. The brackets of an array creation are left alone. -/
def creation (c : Cursor) : Except SyntaxError (After c (List Outline)) := do
  let ⟨_, c₁, h₁⟩ ← c.expect .creation
  let ⟨_, c₂, h₂⟩ ← c₁.typeArguments?
  let ⟨type, c₃, h₃⟩ ← c₂.typeRef
  if c₃.current = .leftParen then
    let ⟨arguments, c₄, h₄⟩ ← c₃.arguments
    if c₄.current = .leftBrace then
      let ⟨body, c₅, h₅⟩ ← c₄.typeBody
      return ⟨arguments ++ [.node (.anonymousClass type) c₄.span [body]], c₅,
        (((h₅.trans h₄).trans h₃).trans_le h₂).trans h₁⟩
    else return ⟨arguments, c₄, ((h₄.trans h₃).trans_le h₂).trans h₁⟩
  else return ⟨[], c₃, (h₃.trans_le h₂).trans h₁⟩
termination_by 8 * c.remaining

end

end FieldShadow.Cursor
