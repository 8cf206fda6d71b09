import FieldShadow.Proofs.Grammar.Ending

/-!
# A parser that builds its tree while it reads

The readers of the grammar give outlines, which are hung into a tree when the whole unit was read.
The parser of this module does not wait. It has the tree in its state, adds each node where it has
read what makes the node, and hands the number of the node to the readers of what lies below. A
reader that was given a number may go on adding below it at any later time; nothing in the parser
keeps it from adding below a node whose text has ended.

Type bodies, statements and expressions are read again inside of each other. The readers take them
as a record (`Inner`), and `readers` ties the readers to themselves, as deep as there are tokens. A
reader that would be called deeper has no result; that none is, is shown where the parser is proved
to read what the grammar reads.
-/

namespace FieldShadow

namespace Builder

open Stateful

open Cursor (declaratorFollow)

variable {whole : Cursor}

/-! ## Steps -/

/-- Adds a node below another one and gives its number. -/
def addNode (parent : Nat) (kind : NodeKind) (span : Span) : Action whole Nat := do
  let s ← get
  set { s with tree := s.tree.add parent kind span }
  return s.tree.size

/-- Passes the current token if it is the given one. -/
def accept (t : Token) : Action whole Bool := do
  if (← current) = t then
    let _ ← advance
    return true
  else return false

/-- Does something if a token stands here. -/
def whenAt (t : Token) (action : Action whole Unit) : Action whole Unit := do
  if (← current) = t then action

/-- Does something unless a token stands here. -/
def unlessAt (t : Token) (action : Action whole Unit) : Action whole Unit := do
  if (← current) = t then return () else action

/-- Passes a token and does something behind it, if the token stands here. -/
def whenAccepted (t : Token) (action : Action whole Unit) : Action whole Unit := do
  if ← accept t then action

/-- The stretch of the current token. -/
def currentSpan : Action whole Span :=
  return (← get).lexeme.span

/-! ## What is passed over -/

/-- Passes a package or import directive, up to and with its semicolon. -/
def directive : Unit → Action whole Unit :=
  loop fun again _ => do
    match ← current with
    | .semicolon =>
      let _ ← advance
    | .eof => fail .directiveEnd
    | _ =>
      let _ ← advance
      again ()

/-- Passes the rest of a header up to the opening brace of a body. -/
def header : Unit → Action whole Unit :=
  loop fun again _ => do
    match ← current with
    | .leftBrace => return ()
    | .eof | .semicolon => fail .typeBody
    | _ =>
      let _ ← advance
      again ()

/-- Reads the further alternatives of the type of a `catch` parameter. -/
def catchAlternatives : Unit → Action whole Unit :=
  loop fun again _ => do
    whenAccepted (.operator "|") do
      let _ ← typeRef
      again ()

/-! ## Parameters -/

/-- The type of a parameter; an ellipsis behind it makes it an array. -/
def variadic (type : TypeRef) : Action whole TypeRef := do
  if ← accept .ellipsis then return .array type else return type

/-- Reads one parameter. The receiver `this` declares none. -/
def parameter (parameters : Nat) : Action whole Unit := do
  let ms ← modifiers []
  let base ← typeRef
  let type ← variadic base
  if ← accept (.keyword .this) then return ()
  else
    let (name, span) ← identifier .parameter
    let full ← dimensions type
    let _ ← addNode parameters (.parameterDef name ms full) span

/-- Reads parameters up to the end of the list. -/
def parameterList (parameters : Nat) : Unit → Action whole Unit :=
  loop fun again _ => do
    parameter parameters
    whenAccepted .comma (again ())

/-- Reads a parameter list with its parentheses. -/
def parameters (owner : Nat) : Action whole Unit := do
  let opening ← expect .parametersOpen
  let parameters ← addNode owner .parameters opening
  unlessAt .rightParen (parameterList parameters ())
  let _ ← expect .parametersClose

/-- Passes the word that a type declaration begins with. -/
def headingStart : Action whole Unit := do
  let first ← current
  let second ← peek 1
  let _ ← advance
  if first = .at ∧ second = .keyword .interface then
    let _ ← advance

/-- Reads the heading of a type declaration up to the brace that opens its body. Only then is it
looked at whether it began with one of the words for a type. -/
def typeHeading (ms : List Modifier) : Action whole (NodeKind × Span) := do
  let first := (← get).lexeme
  headingStart
  let (name, nameSpan) ← identifier .type
  header ()
  let span := first.span.to nameSpan
  match first.token with
  | .keyword .class_ => return (.classDef name ms, span)
  | .keyword .interface => return (.interfaceDef name ms, span)
  | .keyword .enum => return (.enumDef name ms, span)
  | .at => return (.annotationDef name ms, span)
  | t => throw ⟨.typeDeclaration, t, first.span.start⟩

/-! ## Readers that come back to themselves -/

/-- The readers that are read again inside of others. -/
structure Inner (whole : Cursor) where
  typeBody (owner : Nat) : Action whole Unit
  enumBody (owner : Nat) : Action whole Unit
  statement (parent : Nat) : Action whole Unit
  expression (parent : Nat) (terminators : List Token) : Action whole Unit

/-- Reads a node whose children stand in braces. -/
def braces (opening closing : Mark) (kind : NodeKind) (children : Nat → Action whole Unit)
    (parent : Nat) : Action whole Unit := do
  let span ← expect opening
  let node ← addNode parent kind span
  children node
  let _ ← expect closing

/-- Reads one after the other up to a closing brace. -/
def untilBrace (enclosure : Enclosure) (one : Action whole Unit) : Unit → Action whole Unit :=
  loop fun again _ => do
    match ← current with
    | .rightBrace => return ()
    | .eof => fail (.more enclosure)
    | _ =>
      one
      again ()

variable (inner : Inner whole)

/-- Passes an expression or an argument list in parentheses. -/
def arguments (parent : Nat) : Action whole Unit := do
  let _ ← expect .argumentsOpen
  inner.expression parent [.rightParen]
  let _ ← expect .argumentsClose

/-- Reads the creation of an object. The node of an anonymous class is added behind the arguments,
and with it those that are created in the arguments. -/
def creation (parent : Nat) : Action whole Unit := do
  let _ ← expect .creation
  typeArguments?
  let type ← typeRef
  whenAt .leftParen do
    arguments inner parent
    whenAt .leftBrace do
      let node ← addNode parent (.anonymousClass type) (← currentSpan)
      inner.typeBody node

/-- Passes an expression. -/
def expression (parent : Nat) (terminators : List Token) : Action whole Unit :=
  Stateful.expression (creation inner parent) terminators

/-- Reads declarators that share modifiers and a type, behind the name of the first. -/
def declarators (parent : Nat) (ms : List Modifier) (type : TypeRef) :
    String × Span → Action whole Unit :=
  loop fun again declared => do
    let full ← dimensions type
    let node ← addNode parent (.variableDef declared.1 ms full) declared.2
    whenAccepted .equal (inner.expression node [.comma, .semicolon])
    whenAccepted .comma do
      let next ← identifier .variable
      again next

/-- Reads a block. -/
def block (parent : Nat) : Action whole Unit :=
  braces .blockOpen .blockClose .block
    (fun node => untilBrace .block (inner.statement node) ()) parent

/-! ## Statements -/

/-- Reads a label of a `switch`, or a statement in it. -/
def caseGroup (parent : Nat) : Action whole Unit := do
  match ← current, ← peek 1 with
  | .keyword .case, _ =>
    let _ ← advance
    inner.expression parent [.colon]
    let _ ← expect .caseEnd
  | .modifier .default, .colon =>
    let _ ← advance
    let _ ← advance
  | _, _ => inner.statement parent

/-- Reads the body of a `switch`; all its case groups share one block. -/
def switchBody (parent : Nat) : Action whole Unit :=
  braces .switchOpen .switchClose .block
    (fun node => untilBrace .switchBody (caseGroup inner node) ()) parent

/-- Reads the initializer of a `for` statement. -/
def forInitializer (parent : Nat) (opening : Span) : Action whole Unit := do
  match ← declarationHead declaratorFollow with
  | some (ms, type) =>
    let clause ← addNode parent .forInit opening
    let declared ← identifier .loopVariable
    declarators inner clause ms type declared
  | none => inner.expression parent [.semicolon]

/-- Reads what stands between the parentheses of a `for` statement. -/
def forClauses (parent : Nat) (opening : Span) : Action whole Unit := do
  match ← declarationHead [.colon] with
  | some (ms, type) =>
    let clause ← addNode parent .forEachClause opening
    let (name, span) ← identifier .loopVariable
    let _ ← addNode clause (.variableDef name ms type) span
    let _ ← expect .forEachColon
    inner.expression clause [.rightParen]
  | none =>
    forInitializer inner parent opening
    let _ ← expect .forInitEnd
    inner.expression parent [.semicolon]
    let _ ← expect .forConditionEnd
    inner.expression parent [.rightParen]

/-- Reads a `for` statement behind its keyword. -/
def forRest (parent : Nat) : Action whole Unit := do
  let opening ← expect .forOpen
  forClauses inner parent opening
  let _ ← expect .forClose
  inner.statement parent

/-- Reads a `catch` clause behind its keyword. -/
def catchClause (parent : Nat) (clause : Span) : Action whole Unit := do
  let _ ← expect .catchOpen
  let node ← addNode parent .catchClause clause
  let ms ← modifiers []
  let type ← typeRef
  catchAlternatives ()
  let (name, span) ← identifier .catchParameter
  let _ ← addNode node (.parameterDef name ms type) span
  let _ ← expect .catchClose
  block inner node

/-- Reads the `catch` clauses of a `try` statement. -/
def catches (parent : Nat) : Unit → Action whole Unit :=
  loop fun again _ => do
    if (← current) = .keyword .catch then
      let clause ← advance
      catchClause inner parent clause
      again ()

/-- Reads a `try` statement behind its keyword. -/
def tryRest (parent : Nat) : Action whole Unit := do
  whenAt .leftParen (arguments inner parent)
  block inner parent
  catches inner parent ()
  whenAccepted (.keyword .finally) (block inner parent)

/-! ## Types -/

/-- Reads a constructor behind its modifiers. -/
def constructor (body : Nat) (ms : List Modifier) : Action whole Unit := do
  let (name, span) ← identifier .constructor
  let node ← addNode body (.constructorDef name ms) span
  parameters node
  header ()
  block inner node

/-- Reads what follows the parameter list of a method: its body, a semicolon, or the default value
of an annotation element, and passes what stands in front of that. -/
def methodBody (method : Nat) : Unit → Action whole Unit :=
  loop fun again _ => do
    match ← current with
    | .leftBrace => block inner method
    | .semicolon =>
      let _ ← advance
    | .modifier .default =>
      let _ ← advance
      inner.expression method [.semicolon]
      let _ ← expect .annotationDefaultEnd
    | .eof => fail (.more .methodHeader)
    | _ =>
      let _ ← advance
      again ()

/-- Reads a method or fields behind their modifiers. -/
def methodOrFields (body : Nat) (ms : List Modifier) : Action whole Unit := do
  let type ← typeRef
  let (name, span) ← identifier .member
  if (← current) = .leftParen then
    let node ← addNode body (.methodDef name ms type) span
    parameters node
    methodBody inner node ()
  else
    declarators inner body ms type (name, span)
    let _ ← expect .fieldEnd

/-- Reads a constant of an enum with its arguments and its body. -/
def enumConstant (body : Nat) : Action whole Unit := do
  let _ ← modifiers []
  let (name, span) ← identifier .enumConstant
  let node ← addNode body (.enumConstant name) span
  whenAt .leftParen (arguments inner node)
  whenAt .leftBrace (inner.typeBody node)

/-- Reads a type declaration behind its modifiers. -/
def typeDeclaration (parent : Nat) (ms : List Modifier) : Action whole Unit := do
  let (kind, span) ← typeHeading ms
  let node ← addNode parent kind span
  match kind with
  | .enumDef .. => inner.enumBody node
  | _ => inner.typeBody node

/-- Reads the declaration of a nested type, a constructor, a method or fields. -/
def memberDeclaration (body : Nat) : Action whole Unit := do
  let ms ← modifiers []
  if (← get).startsType then typeDeclaration inner body ms
  else
    typeArguments?
    match ← current, ← peek 1 with
    | .identifier _, .leftParen => constructor inner body ms
    | _, _ => methodOrFields inner body ms

/-- Reads one member: an initializer, a declaration or a lone semicolon. -/
def member (body : Nat) : Action whole Unit := do
  match ← current, ← peek 1 with
  | .semicolon, _ =>
    let _ ← advance
  | .modifier .static, .leftBrace =>
    let span ← advance
    let node ← addNode body .staticInit span
    block inner node
  | .leftBrace, _ =>
    let node ← addNode body .instanceInit (← currentSpan)
    block inner node
  | _, _ => memberDeclaration inner body

/-- Reads the members of a type up to the closing brace of its body. -/
def members (body : Nat) : Action whole Unit :=
  untilBrace .typeBody (member inner body) ()

/-- Reads the constants of an enum, and behind a semicolon its members. -/
def enumConstants (body : Nat) : Unit → Action whole Unit :=
  loop fun again _ => do
    match ← current with
    | .semicolon =>
      let _ ← advance
      members inner body
    | .rightBrace => return ()
    | .comma =>
      let _ ← advance
      again ()
    | _ =>
      enumConstant inner body
      again ()

/-- Reads the body of a class, an interface, an annotation type, an enum constant or an anonymous
class. -/
def typeBody (owner : Nat) : Action whole Unit :=
  braces .typeBodyOpen .typeBodyClose .typeBody (members inner) owner

/-- Reads the body of an enum. -/
def enumBody (owner : Nat) : Action whole Unit :=
  braces .enumBodyOpen .enumBodyClose .typeBody (fun node => enumConstants inner node ()) owner

/-- What a statement hands over to. -/
def callees : Callees whole where
  block := block inner
  statement := inner.statement
  arguments := arguments inner
  switchBody := switchBody inner
  forRest := forRest inner
  tryRest := tryRest inner
  expression := expression inner
  declarators parent ms type name span := declarators inner parent ms type (name, span)
  typeDeclaration := typeDeclaration inner

/-- Reads one statement. -/
def statement (parent : Nat) : Action whole Unit :=
  Stateful.statement (callees inner) parent

/-- The readers with so many calls of themselves inside of each other. -/
def readers (whole : Cursor) : Nat → Inner whole
  | 0 => ⟨fun _ _ => none, fun _ _ => none, fun _ _ => none, fun _ _ _ => none⟩
  | n + 1 =>
    let inner := readers whole n
    ⟨typeBody inner, enumBody inner, statement inner, expression inner⟩

/-! ## Compilation units -/

/-- Reads directives and type declarations up to the end of the text. -/
def declarations : Unit → Action whole Unit :=
  loop fun again _ => do
    match ← current with
    | .eof => return ()
    | .semicolon =>
      let _ ← advance
      again ()
    | .keyword .package | .keyword .import =>
      directive ()
      again ()
    | _ =>
      let ms ← modifiers []
      -- a package directive may carry annotations
      if (← current) = .keyword .package then
        directive ()
        again ()
      else
        typeDeclaration inner SyntaxTree.root ms
        again ()

/-- At the first token of a row, with nothing read. -/
def start (whole : Cursor) : State whole where
  position := ⟨0, by rw [whole.length_row]; omega⟩
  tree := .empty
  errors := []

/-- What a parser answers: its tree, which it gives away, or all of its errors. -/
def answer (s : State whole) : Except (List String) SyntaxTree × State whole :=
  if s.errors = [] then (.ok s.tree, { s with tree := .empty }) else (.error s.errors, s)

/-- Reads a compilation unit. A parser that has failed reads no more. -/
def unit (s : State whole) : Option (Except (List String) SyntaxTree × State whole) :=
  if s.errors = [] then
    (declarations (readers whole whole.row.length) () s).map fun
      | (.ok _, s') => answer s'
      | (.error e, s') => answer { s' with errors := s'.errors ++ [e.message] }
  else some (answer s)

end Builder

end FieldShadow
