import FieldShadow.Grammar.Skip
import FieldShadow.SyntaxTree.Outline

/-!
# The headings of declarations

Modifiers, types, parameter lists, and the part of a declaration that tells what it is. Nothing
here reads a body.
-/

namespace FieldShadow.Cursor

/-- Whether a modifier stands for itself when `next` follows. `synchronized (` begins a statement
and `default :` a case group. -/
def standsAsModifier (m : Modifier) (next : Token) : Bool :=
  match m with
  | .synchronized => next != .leftParen
  | .default => next != .colon
  | _ => true

/-- Reads modifiers and passes the annotations between them. -/
def modifiers (c : Cursor) : Except SyntaxError (From c (List Modifier)) :=
  match c.view with
  | .token (.modifier m) _ rest h =>
    if standsAsModifier m rest.current then do
      let ⟨ms, c', h'⟩ ← rest.modifiers
      return ⟨m :: ms, c', (h'.trans_lt h).le⟩
    else return c.stay []
  | .token .at _ _ _ =>
    if c.following = .keyword .interface then return c.stay []
    else do
      let ⟨_, c₁, h₁⟩ ← c.annotationUse
      let ⟨ms, c₂, h₂⟩ ← c₁.modifiers
      return ⟨ms, c₂, (h₂.trans_lt h₁).le⟩
  | _ => return c.stay []
termination_by c.remaining

/-- Reads the array dimensions behind a type or a name. -/
def dimensions (c : Cursor) (type : TypeRef) : From c TypeRef :=
  match c.view with
  | .token .leftBracket _ opened h =>
    match opened.view with
    | .token .rightBracket _ rest h' =>
      let ⟨type', c', h''⟩ := rest.dimensions (.array type)
      ⟨type', c', ((h''.trans_lt h').trans h).le⟩
    | _ => c.stay type
  | _ => c.stay type
termination_by c.remaining

/-- Reads the further parts of the name of a type; type arguments may stand behind each part. -/
def qualifiedName (c : Cursor) (name : String) : Except SyntaxError (From c String) :=
  match c.view with
  | .token .dot _ dotted h =>
    match dotted.view with
    | .token (.identifier part) _ rest h' => do
      let ⟨_, c₁, h₁⟩ ← rest.typeArguments?
      let ⟨full, c₂, h₂⟩ ← c₁.qualifiedName (name ++ "." ++ part)
      return ⟨full, c₂, (((h₂.trans h₁).trans_lt h').trans h).le⟩
    | _ => return c.stay name
  | _ => return c.stay name
termination_by c.remaining

/-- Reads a type. -/
def typeRef (c : Cursor) : Except SyntaxError (After c TypeRef) := do
  let ⟨_, c₁, h₁⟩ ← c.annotationUses
  match c₁.view with
  | .token (.keyword .void) _ c₂ h₂ =>
    let ⟨type, c₃, h₃⟩ := c₂.dimensions .void
    return ⟨type, c₃, (h₃.trans_lt h₂).trans_le h₁⟩
  | .token (.identifier name) _ c₂ h₂ =>
    let ⟨_, c₃, h₃⟩ ← c₂.typeArguments?
    let ⟨full, c₄, h₄⟩ ← c₃.qualifiedName name
    let ⟨type, c₅, h₅⟩ := c₄.dimensions (.ofName full)
    return ⟨type, c₅, (((h₅.trans h₄).trans h₃).trans_lt h₂).trans_le h₁⟩
  | _ => throw (c₁.fault .type)

/-- Reads one parameter. The receiver `this` declares none. -/
def parameter (c : Cursor) : Except SyntaxError (After c (List Outline)) := do
  let ⟨ms, c₁, h₁⟩ ← c.modifiers
  let ⟨type, c₂, h₂⟩ ← c₁.typeRef
  let ⟨type, c₃, h₃⟩ : From c₂ TypeRef := match c₂.accept? .ellipsis with
    | some r => ⟨.array type, r.rest, r.behind.le⟩
    | none => c₂.stay type
  match c₃.accept? (.keyword .this) with
  | some ⟨_, c₄, h₄⟩ => return ⟨[], c₄, ((h₄.trans_le h₃).trans h₂).trans_le h₁⟩
  | none =>
    let ⟨(name, span), c₄, h₄⟩ ← c₃.name .parameter
    let ⟨type, c₅, h₅⟩ := c₄.dimensions type
    return ⟨[.leaf (.parameterDef name ms type) span], c₅,
      (((h₅.trans_lt h₄).trans_le h₃).trans h₂).trans_le h₁⟩

/-- Reads parameters up to the end of the list. -/
def parameterList (c : Cursor) : Except SyntaxError (After c (List Outline)) := do
  let ⟨first, c₁, h₁⟩ ← c.parameter
  match c₁.accept? .comma with
  | some ⟨_, c₂, h₂⟩ =>
    let ⟨others, c₃, h₃⟩ ← c₂.parameterList
    return ⟨first ++ others, c₃, (h₃.trans h₂).trans h₁⟩
  | none => return ⟨first, c₁, h₁⟩
termination_by c.remaining

/-- Reads a parameter list with its parentheses. -/
def parameters (c : Cursor) : Except SyntaxError (After c Outline) := do
  let ⟨opening, c₁, h₁⟩ ← c.expect .parametersOpen
  let ⟨ps, c₂, h₂⟩ ←
    if c₁.current = .rightParen then pure (c₁.stay []) else c₁.parameterList.map After.toFrom
  let ⟨_, c₃, h₃⟩ ← c₂.expect .parametersClose
  return ⟨.node .parameters opening ps, c₃, (h₃.trans_le h₂).trans h₁⟩

/-- The modifiers and the type of a variable declaration, if its name and one of the tokens
`follow` stand behind them. -/
def declarationHead? (c : Cursor) (follow : List Token) :
    Option (After c (List Modifier × TypeRef)) :=
  let head : Except SyntaxError (After c (List Modifier × TypeRef)) := do
    let ⟨ms, c₁, h₁⟩ ← c.modifiers
    let ⟨type, c₂, h₂⟩ ← c₁.typeRef
    return ⟨(ms, type), c₂, h₂.trans_le h₁⟩
  match head with
  | .error _ => none
  | .ok r =>
    match r.rest.current with
    | .identifier _ => if follow.contains r.rest.following then some r else none
    | _ => none

/-- Whether a type declaration begins at the cursor. -/
def startsType (c : Cursor) : Bool :=
  match c.current with
  | .keyword .class_ | .keyword .interface | .keyword .enum => true
  | .at => c.following == .keyword .interface
  | _ => false

/-- Reads the heading of a type declaration up to the brace that opens its body. Only then is it
looked at whether it began with one of the words for a type. -/
def typeHeading (c : Cursor) (ms : List Modifier) :
    Except SyntaxError (After c (NodeKind × Span)) := do
  let isAnnotation := c.current == .at && c.following == .keyword .interface
  let ⟨_, c₁, h₁⟩ : From c Unit :=
    if isAnnotation then ⟨(), c.skip.skip, c.skip.notBefore_skip.trans c.notBefore_skip⟩
    else ⟨(), c.skip, c.notBefore_skip⟩
  let ⟨(name, nameSpan), c₂, h₂⟩ ← c₁.name .type
  let ⟨_, c₃, h₃⟩ ← c₂.header
  let span := c.span.to nameSpan
  match c.current with
  | .keyword .class_ => return ⟨(.classDef name ms, span), c₃, (h₃.trans_lt h₂).trans_le h₁⟩
  | .keyword .interface => return ⟨(.interfaceDef name ms, span), c₃, (h₃.trans_lt h₂).trans_le h₁⟩
  | .keyword .enum => return ⟨(.enumDef name ms, span), c₃, (h₃.trans_lt h₂).trans_le h₁⟩
  | .at => return ⟨(.annotationDef name ms, span), c₃, (h₃.trans_lt h₂).trans_le h₁⟩
  | _ => throw (c.fault .typeDeclaration)

end FieldShadow.Cursor
