import FieldShadow.Config
import FieldShadow.Log

/-!
# The error limit

What becomes of the findings of a check: warnings may count as errors, and of more errors than the
limit allows only the first are kept, with a note about the rest.
-/

namespace FieldShadow

/-- The number of errors among some findings. -/
def errorCount (found : List Diagnostic) : Nat :=
  found.countP Diagnostic.isError

/-- The findings without the errors after the first `limit`. -/
def keepErrors (limit : Nat) : List Diagnostic → List Diagnostic
  | [] => []
  | d :: ds =>
    if !d.isError then d :: keepErrors limit ds
    else match limit with
      | 0 => keepErrors 0 ds
      | limit + 1 => d :: keepErrors limit ds

/-- The note that there were more errors than the limit allows. -/
def limitNote (count limit : Nat) : Diagnostic where
  rule := "error-limit"
  severity := .info
  message := "Too many errors (" ++ toString count ++ "), only the first " ++ toString limit ++
    " are reported"
  arguments := [toString count, toString limit]
  span := .at ⟨0, 0⟩

/-- The findings with the severities that the configuration gives them. -/
def Config.regrade (c : Config) (found : List Diagnostic) : List Diagnostic :=
  if c.warningAsError then found.map Diagnostic.promoted else found

/-- The findings that are reported. -/
def Config.postProcess (c : Config) (found : List Diagnostic) : List Diagnostic :=
  let graded := c.regrade found
  match c.errorLimit? with
  | none => graded
  | some limit =>
    if errorCount graded ≤ limit then graded
    else keepErrors limit graded ++ [limitNote (errorCount graded) limit]

/-- What is logged of that. -/
def Config.postProcessLog (c : Config) (found : List Diagnostic) : List LogEvent :=
  let count := errorCount (c.regrade found)
  match c.errorLimit? with
  | none => []
  | some limit => if count ≤ limit then [] else [.limitReached limit count]

end FieldShadow
