import FieldShadow.SyntaxTree.Outline

/-!
# The core of the grammar

Which rows of tokens make up a declaration, a statement or an expression of the core language, and
which outlines they stand for (`Core.Derives`). The grammar is written down by itself, without a
reader: every rule names its tokens, with any stretches, and the nodes that they give.
-/

namespace FieldShadow.Core

/-! ## Names, types and modifiers -/

/-- The further parts of a dotted name that begins with `name`. -/
inductive Parts : List Lexeme → String → String → Prop
  | nil {name : String} : Parts [] name name
  | cons {ls : List Lexeme} {name part full : String} {s s' : Span}
      (rest : Parts ls (name ++ "." ++ part) full) :
      Parts (⟨.dot, s⟩ :: ⟨.identifier part, s'⟩ :: ls) name full

/-- A dotted name. -/
inductive IsName : List Lexeme → String → Prop
  | mk {ls : List Lexeme} {name full : String} {s : Span} (parts : Parts ls name full) :
      IsName (⟨.identifier name, s⟩ :: ls) full

/-- Array dimensions behind a type. -/
inductive Dimensions : List Lexeme → TypeRef → TypeRef → Prop
  | nil {type : TypeRef} : Dimensions [] type type
  | cons {ls : List Lexeme} {type type' : TypeRef} {s s' : Span}
      (rest : Dimensions ls (.array type) type') :
      Dimensions (⟨.leftBracket, s⟩ :: ⟨.rightBracket, s'⟩ :: ls) type type'

/-- A type. -/
inductive IsType : List Lexeme → TypeRef → Prop
  | mk {ls ls' : List Lexeme} {name : String} {type : TypeRef} (isName : IsName ls name)
      (dimensions : Dimensions ls' (.ofName name) type) : IsType (ls ++ ls') type

/-- What a method returns. -/
inductive IsResult : List Lexeme → TypeRef → Prop
  | void {s : Span} : IsResult [⟨.keyword .void, s⟩] .void
  | type {ls : List Lexeme} {type : TypeRef} (isType : IsType ls type) : IsResult ls type

/-- Tokens whose brackets, of whatever kinds, pair up. -/
inductive Balanced : List Lexeme → Prop
  | nil : Balanced []
  | plain {t : Token} {s : Span} {ls : List Lexeme} (opens : ¬ t.opens) (closes : ¬ t.closes)
      (eof : t ≠ .eof) (rest : Balanced ls) : Balanced (⟨t, s⟩ :: ls)
  | group {t t' : Token} {s s' : Span} {ls ls' : List Lexeme} (opens : t.opens)
      (inner : Balanced ls) (closes : t'.closes) (rest : Balanced ls') :
      Balanced (⟨t, s⟩ :: ls ++ ⟨t', s'⟩ :: ls')

/-- Modifiers, with annotations between them. An annotation may have arguments. -/
inductive Modifiers : List Lexeme → List Modifier → Prop
  | nil : Modifiers [] []
  | word {ls : List Lexeme} {m : Modifier} {ms : List Modifier} {s : Span}
      (rest : Modifiers ls ms) : Modifiers (⟨.modifier m, s⟩ :: ls) (m :: ms)
  | marker {ls ls' : List Lexeme} {name : String} {ms : List Modifier} {s : Span}
      (isName : IsName ls name) (rest : Modifiers ls' ms) :
      Modifiers (⟨.at, s⟩ :: ls ++ ls') ms
  | annotated {ls ls' ls'' : List Lexeme} {name : String} {ms : List Modifier}
      {s s' s'' : Span} (isName : IsName ls name) (arguments : Balanced ls')
      (rest : Modifiers ls'' ms) :
      Modifiers (⟨.at, s⟩ :: ls ++ ⟨.leftParen, s'⟩ :: ls' ++ ⟨.rightParen, s''⟩ :: ls'') ms

/-- The words for a type other than an enum, the kind of its node, and where they begin. -/
inductive TypeWord : List Lexeme → (String → List Modifier → NodeKind) → Span → Prop
  | class_ {s : Span} : TypeWord [⟨.keyword .class_, s⟩] .classDef s
  | interface {s : Span} : TypeWord [⟨.keyword .interface, s⟩] .interfaceDef s
  | atInterface {s s' : Span} :
      TypeWord [⟨.at, s⟩, ⟨.keyword .interface, s'⟩] .annotationDef s

/-- Parameters behind the first. -/
inductive MoreParameters : List Lexeme → List Outline → Prop
  | nil : MoreParameters [] []
  | cons {ls ls' : List Lexeme} {name : String} {type : TypeRef} {s s' : Span}
      {os : List Outline} (isType : IsType ls type) (rest : MoreParameters ls' os) :
      MoreParameters (⟨.comma, s⟩ :: ls ++ ⟨.identifier name, s'⟩ :: ls')
        (.leaf (.parameterDef name [] type) s' :: os)

/-- The parameters of a method or a constructor, without the parentheses. -/
inductive Parameters : List Lexeme → List Outline → Prop
  | nil : Parameters [] []
  | cons {ls ls' : List Lexeme} {name : String} {type : TypeRef} {s : Span} {os : List Outline}
      (isType : IsType ls type) (rest : MoreParameters ls' os) :
      Parameters (ls ++ ⟨.identifier name, s⟩ :: ls')
        (.leaf (.parameterDef name [] type) s :: os)

/-- The tokens that expressions are made of, apart from brackets and creations. -/
def isPlain : Token → Bool
  | .identifier _ | .literal _ | .operator _ | .dot => true
  | _ => false

/-! ## What nests -/

/-- The kinds of rows that nest in each other. -/
inductive Category where
  /-- All types of a compilation unit. -/
  | unit
  | type
  /-- A type body in its braces. -/
  | body
  | optionalBody
  | enumBody
  /-- The constants and members of an enum. -/
  | constants
  /-- What follows a constant. -/
  | moreConstants
  /-- The members of an enum behind their semicolon. -/
  | enumMembers
  | constant
  | members
  | member
  /-- A block, or a semicolon in its place. -/
  | methodBody
  | declarators (ms : List Modifier) (type : TypeRef)
  | initializer
  | block
  | statements
  | statement
  | catches
  | finallyBlock
  /-- The groups of a `switch`. -/
  | groups
  /-- An expression in parentheses. -/
  | arguments
  | optionalArguments
  | expression

/-- The rules of the core grammar. -/
inductive Derives : Category → List Lexeme → List Outline → Prop
  | noTypes : Derives .unit [] []
  | types {ls ls' : List Lexeme} {os os' : List Outline} (first : Derives .type ls os)
      (rest : Derives .unit ls' os') : Derives .unit (ls ++ ls') (os ++ os')
  | typeDeclaration {lm lw ls : List Lexeme} {ms : List Modifier}
      {kind : String → List Modifier → NodeKind} {name : String} {s s' : Span}
      {os : List Outline} (modifiers : Modifiers lm ms) (word : TypeWord lw kind s)
      (body : Derives .body ls os) :
      Derives .type (lm ++ lw ++ ⟨.identifier name, s'⟩ :: ls)
        [.node (kind name ms) (s.to s') os]
  | enumDeclaration {lm ls : List Lexeme} {ms : List Modifier} {name : String} {s s' : Span}
      {os : List Outline} (modifiers : Modifiers lm ms) (body : Derives .enumBody ls os) :
      Derives .type (lm ++ ⟨.keyword .enum, s⟩ :: ⟨.identifier name, s'⟩ :: ls)
        [.node (.enumDef name ms) (s.to s') os]
  | body {ls : List Lexeme} {s s' : Span} {os : List Outline} (members : Derives .members ls os) :
      Derives .body (⟨.leftBrace, s⟩ :: ls ++ [⟨.rightBrace, s'⟩]) [.node .typeBody s os]
  | noBody : Derives .optionalBody [] []
  | someBody {ls : List Lexeme} {os : List Outline} (body : Derives .body ls os) :
      Derives .optionalBody ls os
  | enumBody {ls : List Lexeme} {s s' : Span} {os : List Outline}
      (constants : Derives .constants ls os) :
      Derives .enumBody (⟨.leftBrace, s⟩ :: ls ++ [⟨.rightBrace, s'⟩]) [.node .typeBody s os]
  | noConstants {ls : List Lexeme} {os : List Outline} (members : Derives .enumMembers ls os) :
      Derives .constants ls os
  | constants {ls ls' : List Lexeme} {os os' : List Outline} (first : Derives .constant ls os)
      (rest : Derives .moreConstants ls' os') : Derives .constants (ls ++ ls') (os ++ os')
  | lastConstant {ls : List Lexeme} {os : List Outline} (members : Derives .enumMembers ls os) :
      Derives .moreConstants ls os
  | nextConstant {ls ls' : List Lexeme} {s : Span} {os os' : List Outline}
      (next : Derives .constant ls os) (rest : Derives .moreConstants ls' os') :
      Derives .moreConstants (⟨.comma, s⟩ :: ls ++ ls') (os ++ os')
  | noEnumMembers : Derives .enumMembers [] []
  | enumMembers {ls : List Lexeme} {s : Span} {os : List Outline}
      (members : Derives .members ls os) : Derives .enumMembers (⟨.semicolon, s⟩ :: ls) os
  | constant {ls ls' : List Lexeme} {name : String} {s : Span} {os os' : List Outline}
      (arguments : Derives .optionalArguments ls os) (body : Derives .optionalBody ls' os') :
      Derives .constant (⟨.identifier name, s⟩ :: ls ++ ls')
        [.node (.enumConstant name) s (os ++ os')]
  | noMembers : Derives .members [] []
  | members {ls ls' : List Lexeme} {os os' : List Outline} (first : Derives .member ls os)
      (rest : Derives .members ls' os') : Derives .members (ls ++ ls') (os ++ os')
  | memberType {ls : List Lexeme} {os : List Outline} (type : Derives .type ls os) :
      Derives .member ls os
  | fields {lm lt ls : List Lexeme} {ms : List Modifier} {type : TypeRef} {s : Span}
      {os : List Outline} (modifiers : Modifiers lm ms) (isType : IsType lt type)
      (declarators : Derives (.declarators ms type) ls os) :
      Derives .member (lm ++ lt ++ ls ++ [⟨.semicolon, s⟩]) os
  | method {lm lt lp ls : List Lexeme} {ms : List Modifier} {type : TypeRef} {name : String}
      {s s' s'' : Span} {ps os : List Outline} (modifiers : Modifiers lm ms)
      (result : IsResult lt type) (parameters : Parameters lp ps)
      (body : Derives .methodBody ls os) :
      Derives .member
        (lm ++ lt ++ ⟨.identifier name, s⟩ :: ⟨.leftParen, s'⟩ :: lp ++ ⟨.rightParen, s''⟩ :: ls)
        [.node (.methodDef name ms type) s (.node .parameters s' ps :: os)]
  | constructor {lm lp ls : List Lexeme} {ms : List Modifier} {name : String} {s s' s'' : Span}
      {ps os : List Outline} (modifiers : Modifiers lm ms) (parameters : Parameters lp ps)
      (body : Derives .block ls os) :
      Derives .member
        (lm ++ ⟨.identifier name, s⟩ :: ⟨.leftParen, s'⟩ :: lp ++ ⟨.rightParen, s''⟩ :: ls)
        [.node (.constructorDef name ms) s (.node .parameters s' ps :: os)]
  | staticInit {ls : List Lexeme} {s : Span} {os : List Outline} (body : Derives .block ls os) :
      Derives .member (⟨.modifier .static, s⟩ :: ls) [.node .staticInit s os]
  | instanceInit {ls : List Lexeme} {s s' : Span} {os : List Outline}
      (body : Derives .statements ls os) :
      Derives .member (⟨.leftBrace, s⟩ :: ls ++ [⟨.rightBrace, s'⟩])
        [.node .instanceInit s [.node .block s os]]
  | noMethodBody {s : Span} : Derives .methodBody [⟨.semicolon, s⟩] []
  | methodBody {ls : List Lexeme} {os : List Outline} (body : Derives .block ls os) :
      Derives .methodBody ls os
  | lastDeclarator {ld li : List Lexeme} {ms : List Modifier} {type type' : TypeRef}
      {name : String} {s : Span} {os : List Outline} (dimensions : Dimensions ld type type')
      (initializer : Derives .initializer li os) :
      Derives (.declarators ms type) (⟨.identifier name, s⟩ :: ld ++ li)
        [.node (.variableDef name ms type') s os]
  | nextDeclarator {ld li ls : List Lexeme} {ms : List Modifier} {type type' : TypeRef}
      {name : String} {s s' : Span} {os os' : List Outline}
      (dimensions : Dimensions ld type type') (initializer : Derives .initializer li os)
      (rest : Derives (.declarators ms type) ls os') :
      Derives (.declarators ms type) (⟨.identifier name, s⟩ :: ld ++ li ++ ⟨.comma, s'⟩ :: ls)
        (.node (.variableDef name ms type') s os :: os')
  | noInitializer : Derives .initializer [] []
  | initializer {ls : List Lexeme} {s : Span} {os : List Outline}
      (value : Derives .expression ls os) : Derives .initializer (⟨.equal, s⟩ :: ls) os
  | block {ls : List Lexeme} {s s' : Span} {os : List Outline}
      (statements : Derives .statements ls os) :
      Derives .block (⟨.leftBrace, s⟩ :: ls ++ [⟨.rightBrace, s'⟩]) [.node .block s os]
  | noStatements : Derives .statements [] []
  | statements {ls ls' : List Lexeme} {os os' : List Outline} (first : Derives .statement ls os)
      (rest : Derives .statements ls' os') : Derives .statements (ls ++ ls') (os ++ os')
  | blockStatement {ls : List Lexeme} {os : List Outline} (block : Derives .block ls os) :
      Derives .statement ls os
  | emptyStatement {s : Span} : Derives .statement [⟨.semicolon, s⟩] []
  | locals {lt ls : List Lexeme} {type : TypeRef} {s : Span} {os : List Outline}
      (isType : IsType lt type) (declarators : Derives (.declarators [] type) ls os) :
      Derives .statement (lt ++ ls ++ [⟨.semicolon, s⟩]) os
  | localClass {ls : List Lexeme} {name : String} {s s' : Span} {os : List Outline}
      (body : Derives .body ls os) :
      Derives .statement (⟨.keyword .class_, s⟩ :: ⟨.identifier name, s'⟩ :: ls)
        [.node (.classDef name []) (s.to s') os]
  | ifThen {ls ls' : List Lexeme} {s : Span} {os os' : List Outline}
      (condition : Derives .arguments ls os) (yes : Derives .block ls' os') :
      Derives .statement (⟨.keyword .if, s⟩ :: ls ++ ls') (os ++ os')
  | ifElse {ls ls' ls'' : List Lexeme} {s s' : Span} {os os' os'' : List Outline}
      (condition : Derives .arguments ls os) (yes : Derives .block ls' os')
      (no : Derives .block ls'' os'') :
      Derives .statement (⟨.keyword .if, s⟩ :: ls ++ ls' ++ ⟨.keyword .else, s'⟩ :: ls'')
        (os ++ os' ++ os'')
  | whileLoop {ls ls' : List Lexeme} {s : Span} {os os' : List Outline}
      (condition : Derives .arguments ls os) (body : Derives .block ls' os') :
      Derives .statement (⟨.keyword .while, s⟩ :: ls ++ ls') (os ++ os')
  | doWhile {ls ls' : List Lexeme} {s s' s'' : Span} {os os' : List Outline}
      (body : Derives .block ls os) (condition : Derives .arguments ls' os') :
      Derives .statement
        (⟨.keyword .do, s⟩ :: ls ++ ⟨.keyword .while, s'⟩ :: ls' ++ [⟨.semicolon, s''⟩])
        (os ++ os')
  | forLoop {lt ld lc lu ls : List Lexeme} {type : TypeRef} {s s₁ s₂ s₃ s₄ : Span}
      {od oc ou os : List Outline} (isType : IsType lt type)
      (declarators : Derives (.declarators [] type) ld od)
      (condition : Derives .expression lc oc) (update : Derives .expression lu ou)
      (body : Derives .block ls os) :
      Derives .statement
        (⟨.keyword .for, s⟩ :: ⟨.leftParen, s₁⟩ :: lt ++ ld ++ ⟨.semicolon, s₂⟩ :: lc ++
          ⟨.semicolon, s₃⟩ :: lu ++ ⟨.rightParen, s₄⟩ :: ls)
        (.node .forInit s₁ od :: oc ++ ou ++ os)
  | forEachLoop {lt lc ls : List Lexeme} {type : TypeRef} {name : String} {s s₁ s₂ s₃ s₄ : Span}
      {oc os : List Outline} (isType : IsType lt type) (collection : Derives .expression lc oc)
      (body : Derives .block ls os) :
      Derives .statement
        (⟨.keyword .for, s⟩ :: ⟨.leftParen, s₁⟩ :: lt ++ ⟨.identifier name, s₂⟩ ::
          ⟨.colon, s₃⟩ :: lc ++ ⟨.rightParen, s₄⟩ :: ls)
        (.node .forEachClause s₁ (.leaf (.variableDef name [] type) s₂ :: oc) :: os)
  | tryStatement {ls ls' ls'' : List Lexeme} {s : Span} {os os' os'' : List Outline}
      (body : Derives .block ls os) (catches : Derives .catches ls' os')
      (last : Derives .finallyBlock ls'' os'') :
      Derives .statement (⟨.keyword .try, s⟩ :: ls ++ ls' ++ ls'') (os ++ os' ++ os'')
  | switchStatement {ls ls' : List Lexeme} {s s' s'' : Span} {os os' : List Outline}
      (subject : Derives .arguments ls os) (groups : Derives .groups ls' os') :
      Derives .statement
        (⟨.keyword .switch, s⟩ :: ls ++ ⟨.leftBrace, s'⟩ :: ls' ++ [⟨.rightBrace, s''⟩])
        (os ++ [.node .block s' os'])
  | returnStatement {ls : List Lexeme} {s s' : Span} {os : List Outline}
      (value : Derives .expression ls os) :
      Derives .statement (⟨.keyword .return, s⟩ :: ls ++ [⟨.semicolon, s'⟩]) os
  | call {ls : List Lexeme} {name : String} {s s' : Span} {os : List Outline}
      (notPrimitive : name ∉ TypeRef.primitiveNames) (arguments : Derives .arguments ls os) :
      Derives .statement (⟨.identifier name, s⟩ :: ls ++ [⟨.semicolon, s'⟩]) os
  | noCatches : Derives .catches [] []
  | catches {lt ls ls' : List Lexeme} {type : TypeRef} {name : String} {s s₁ s₂ s₃ : Span}
      {os os' : List Outline} (isType : IsType lt type) (body : Derives .block ls os)
      (rest : Derives .catches ls' os') :
      Derives .catches
        (⟨.keyword .catch, s⟩ :: ⟨.leftParen, s₁⟩ :: lt ++ ⟨.identifier name, s₂⟩ ::
          ⟨.rightParen, s₃⟩ :: ls ++ ls')
        (.node .catchClause s (.leaf (.parameterDef name [] type) s₂ :: os) :: os')
  | noFinally : Derives .finallyBlock [] []
  | finallyBlock {ls : List Lexeme} {s : Span} {os : List Outline} (block : Derives .block ls os) :
      Derives .finallyBlock (⟨.keyword .finally, s⟩ :: ls) os
  | noGroups : Derives .groups [] []
  | caseGroup {lc ls ls' : List Lexeme} {s s' : Span} {oc os os' : List Outline}
      (label : Derives .expression lc oc) (statements : Derives .statements ls os)
      (rest : Derives .groups ls' os') :
      Derives .groups (⟨.keyword .case, s⟩ :: lc ++ ⟨.colon, s'⟩ :: ls ++ ls') (oc ++ os ++ os')
  | defaultGroup {ls ls' : List Lexeme} {s s' : Span} {os os' : List Outline}
      (statements : Derives .statements ls os) (rest : Derives .groups ls' os') :
      Derives .groups (⟨.modifier .default, s⟩ :: ⟨.colon, s'⟩ :: ls ++ ls') (os ++ os')
  | arguments {ls : List Lexeme} {s s' : Span} {os : List Outline}
      (value : Derives .expression ls os) :
      Derives .arguments (⟨.leftParen, s⟩ :: ls ++ [⟨.rightParen, s'⟩]) os
  | noArguments : Derives .optionalArguments [] []
  | someArguments {ls : List Lexeme} {os : List Outline} (arguments : Derives .arguments ls os) :
      Derives .optionalArguments ls os
  | nothing : Derives .expression [] []
  | plain {t : Token} {ls : List Lexeme} {s : Span} {os : List Outline} (isPlain : isPlain t)
      (rest : Derives .expression ls os) : Derives .expression (⟨t, s⟩ :: ls) os
  | parentheses {ls ls' : List Lexeme} {s s' : Span} {os os' : List Outline}
      (inner : Derives .expression ls os) (rest : Derives .expression ls' os') :
      Derives .expression (⟨.leftParen, s⟩ :: ls ++ ⟨.rightParen, s'⟩ :: ls') (os ++ os')
  | brackets {ls ls' : List Lexeme} {s s' : Span} {os os' : List Outline}
      (inner : Derives .expression ls os) (rest : Derives .expression ls' os') :
      Derives .expression (⟨.leftBracket, s⟩ :: ls ++ ⟨.rightBracket, s'⟩ :: ls') (os ++ os')
  | creation {ln ls ls' : List Lexeme} {name : String} {s : Span} {os os' : List Outline}
      (isName : IsName ln name) (arguments : Derives .arguments ls os)
      (rest : Derives .expression ls' os') :
      Derives .expression (⟨.keyword .new, s⟩ :: ln ++ ls ++ ls') (os ++ os')
  | anonymousClass {ln ls lb ls' : List Lexeme} {name : String} {s s₁ s₂ : Span}
      {os ob os' : List Outline} (isName : IsName ln name) (arguments : Derives .arguments ls os)
      (members : Derives .members lb ob) (rest : Derives .expression ls' os') :
      Derives .expression
        (⟨.keyword .new, s⟩ :: ln ++ ls ++ ⟨.leftBrace, s₁⟩ :: lb ++ ⟨.rightBrace, s₂⟩ :: ls')
        (os ++ .node (.anonymousClass (.ofName name)) s₁ [.node .typeBody s₁ ob] :: os')

end FieldShadow.Core
