import FieldShadow.Diagnostic
import FieldShadow.HiddenField.Declaration
import FieldShadow.Pattern

/-!
# The settings of the rule
-/

namespace FieldShadow

/-- What the rule looks at, what it lets pass, and how it reports. Setters that return their class
are let pass only together with other setters. -/
structure Settings where
  ignoreFormat? : Option Pattern := none
  ignoreSetter : Bool := false
  setterCanReturnItsClass : Bool := false
  ignoreConstructorParameter : Bool := false
  ignoreAbstractMethods : Bool := false
  kinds : DeclarationKinds := ⟨true, true⟩
  severity : Severity := .error

/-- The settings with the pattern of another text, if the engine takes that for a pattern. -/
def Settings.withFormat? [PatternEngine] (s : Settings) (text : String) : Option Settings :=
  (PatternEngine.compile? text).map fun p => { s with ignoreFormat? := some p }

end FieldShadow
