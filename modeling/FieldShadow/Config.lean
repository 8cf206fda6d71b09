import FieldShadow.HiddenField.Settings

/-!
# Configuration
-/

namespace FieldShadow

/-- How sources are checked: the rules that are switched off, what becomes of the findings, and the
settings of the rule. -/
structure Config where
  disabledRules : List String := []
  warningAsError : Bool := false
  errorLimit? : Option Nat := none
  hiddenField : Settings := {}

end FieldShadow
