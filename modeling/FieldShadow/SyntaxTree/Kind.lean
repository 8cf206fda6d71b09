import FieldShadow.Token

/-!
# Kinds of nodes

What a node of a syntax tree can be: the declarations of a Java compilation unit and the blocks
that hold them. Statements and expressions have no nodes.
-/

namespace FieldShadow

/-- A declared type. Type arguments are dropped, and a qualified name keeps its dots. -/
inductive TypeRef where
  | void
  | primitive (name : String)
  | named (name : String)
  | array (element : TypeRef)
  deriving DecidableEq, Repr

/-- The identifier that a type is written with. An array has none, and a qualified name is never
equal to a simple one. -/
def TypeRef.identifier? : TypeRef → Option String
  | .void => some "void"
  | .primitive name => some name
  | .named name => some name
  | .array _ => none

/-- The names of the primitive types. -/
def TypeRef.primitiveNames : List String :=
  ["boolean", "byte", "char", "short", "int", "long", "float", "double"]

/-- The type with this name. -/
def TypeRef.ofName (name : String) : TypeRef :=
  if primitiveNames.contains name then .primitive name else .named name

/-- The kind of a node. A type body holds the members of a type, of an enum constant or of an
anonymous class. -/
inductive NodeKind where
  | compilationUnit
  | classDef (name : String) (modifiers : List Modifier)
  | interfaceDef (name : String) (modifiers : List Modifier)
  | annotationDef (name : String) (modifiers : List Modifier)
  | enumDef (name : String) (modifiers : List Modifier)
  | enumConstant (name : String)
  | typeBody
  | anonymousClass (type : TypeRef)
  | methodDef (name : String) (modifiers : List Modifier) (returnType : TypeRef)
  | constructorDef (name : String) (modifiers : List Modifier)
  | parameters
  | parameterDef (name : String) (modifiers : List Modifier) (type : TypeRef)
  | variableDef (name : String) (modifiers : List Modifier) (type : TypeRef)
  | staticInit
  | instanceInit
  | block
  | forInit
  | forEachClause
  | catchClause
  deriving DecidableEq, Repr

namespace NodeKind

/-- The declared name, for kinds that declare one. -/
def name? : NodeKind → Option String
  | .classDef name _ => some name
  | .interfaceDef name _ => some name
  | .annotationDef name _ => some name
  | .enumDef name _ => some name
  | .enumConstant name => some name
  | .methodDef name _ _ => some name
  | .constructorDef name _ => some name
  | .parameterDef name _ _ => some name
  | .variableDef name _ _ => some name
  | _ => none

/-- The modifiers of a declaration; kinds without modifiers have an empty list. -/
def modifiers : NodeKind → List Modifier
  | .classDef _ modifiers => modifiers
  | .interfaceDef _ modifiers => modifiers
  | .annotationDef _ modifiers => modifiers
  | .enumDef _ modifiers => modifiers
  | .methodDef _ modifiers _ => modifiers
  | .constructorDef _ modifiers => modifiers
  | .parameterDef _ modifiers _ => modifiers
  | .variableDef _ modifiers _ => modifiers
  | _ => []

/-- The type of a variable or parameter, the return type of a method, the class that an anonymous
class extends. -/
def type? : NodeKind → Option TypeRef
  | .anonymousClass type => some type
  | .methodDef _ _ returnType => some returnType
  | .parameterDef _ _ type => some type
  | .variableDef _ _ type => some type
  | _ => none

/-- Whether a declaration carries the modifier. -/
def hasModifier (kind : NodeKind) (modifier : Modifier) : Bool :=
  kind.modifiers.contains modifier

end NodeKind

end FieldShadow
