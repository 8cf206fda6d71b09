import FieldShadow.HiddenField.Settings
import FieldShadow.Text.Capital

/-!
# Exemptions

The declarations that hide a field and are let pass all the same.
-/

namespace FieldShadow

/-- The reasons to let a declaration pass. -/
inductive Exemption where
  | format
  | setter
  | constructor
  | abstractMethod
  deriving DecidableEq, Repr

namespace Exemption

/-- The name of an exemption is that of the property that switches it on. -/
def name : Exemption → String
  | .format => "ignoreFormat"
  | .setter => "ignoreSetter"
  | .constructor => "ignoreConstructorParameter"
  | .abstractMethod => "ignoreAbstractMethods"

/-- All exemptions, in the order in which they are tried. -/
def all : List Exemption :=
  [.format, .setter, .constructor, .abstractMethod]

/-- Whether a method with this return type may be a setter inside the type `enclosing?`. -/
def isSetterType (s : Settings) (enclosing? : Option String) : TypeRef → Bool
  | .void => true
  | type => s.setterCanReturnItsClass && type.identifier?.isSome && type.identifier? == enclosing?

/-- Whether a declaration is the only parameter of the setter of its own name. -/
def isSetterParameter (s : Settings) (t : SyntaxTree) (d : Declaration) : Bool :=
  match d.parameterList? t with
  | none => false
  | some (list, owner) =>
    match t.kind? owner with
    | some (.methodDef name _ type) =>
      (t.children list).length == 1 && name == "set" ++ Text.capitalize d.name &&
        isSetterType s d.enclosingType? type
    | _ => false

/-- Whether a declaration is let pass for this reason. -/
def applies (e : Exemption) (s : Settings) (t : SyntaxTree) (d : Declaration) : Bool :=
  match e with
  | .format => s.ignoreFormat?.any fun p => p.occursIn d.name
  | .setter => s.ignoreSetter && isSetterParameter s t d
  | .constructor =>
    s.ignoreConstructorParameter && match d.owner? t with
      | some (.constructorDef ..) => true
      | _ => false
  | .abstractMethod =>
    s.ignoreAbstractMethods && match d.owner? t with
      | some (.methodDef _ ms _) => ms.contains .abstract
      | _ => false

/-- The first reason to let a declaration pass, if there is one. -/
def find? (s : Settings) (t : SyntaxTree) (d : Declaration) : Option Exemption :=
  all.find? fun e => e.applies s t d

end Exemption

end FieldShadow
