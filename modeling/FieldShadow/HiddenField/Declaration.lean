import FieldShadow.SyntaxTree.Basic

/-!
# Declarations under check

A variable or parameter as the rule looks at it.
-/

namespace FieldShadow

/-- The two kinds of declarations that can hide a field. -/
inductive DeclarationKind where
  | variable
  | parameter
  deriving DecidableEq, Repr

/-- The name of a kind. -/
def DeclarationKind.name : DeclarationKind → String
  | .variable => "Variable"
  | .parameter => "Parameter"

/-- The kinds of declarations that are checked. -/
structure DeclarationKinds where
  locals : Bool
  parameters : Bool
  deriving DecidableEq, Repr

/-- Whether a kind is checked. -/
def DeclarationKinds.includes (kinds : DeclarationKinds) : DeclarationKind → Bool
  | .variable => kinds.locals
  | .parameter => kinds.parameters

/-- The name and kind of a node that declares a variable or a parameter. -/
def NodeKind.declares? : NodeKind → Option (String × DeclarationKind)
  | .variableDef name _ _ => some (name, .variable)
  | .parameterDef name _ _ => some (name, .parameter)
  | _ => none

/-- A declaration that may hide a field, with the name of the type around it if that has one. -/
structure Declaration where
  node : Nat
  name : String
  kind : DeclarationKind
  enclosingType? : Option String
  deriving DecidableEq, Repr

/-- The parameter list that a parameter is in, and the method or constructor that this belongs to.
The parameter of a `catch` is in none. -/
def Declaration.parameterList? (d : Declaration) (t : SyntaxTree) : Option (Nat × Nat) := do
  guard (d.kind = .parameter)
  let list ← t.parent? d.node
  guard (t.kind? list = some .parameters)
  return (list, ← t.parent? list)

/-- What the parameter list that a parameter is in belongs to. -/
def Declaration.owner? (d : Declaration) (t : SyntaxTree) : Option NodeKind := do
  let (_, owner) ← d.parameterList? t
  t.kind? owner

end FieldShadow
