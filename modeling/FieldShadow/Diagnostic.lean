import FieldShadow.Span

/-!
# Diagnostics

What a rule has found, and the collection of all that was found.
-/

namespace FieldShadow

/-- How serious a finding is. -/
inductive Severity where
  | error
  | warning
  | info
  deriving DecidableEq, Repr

/-- The name of a severity. -/
def Severity.name : Severity → String
  | .error => "error"
  | .warning => "warning"
  | .info => "info"

/-- The severity with a name, in letters of any case. -/
def Severity.ofName? (name : String) : Option Severity :=
  [Severity.error, .warning, .info].find? fun s => s.name = name.toLower

/-- A finding of a rule. The arguments are the values that occur in the message. -/
structure Diagnostic where
  rule : String
  severity : Severity
  message : String
  arguments : List String
  span : Span
  deriving DecidableEq, Repr

namespace Diagnostic

/-- Whether a finding is an error. -/
def isError (d : Diagnostic) : Bool :=
  d.severity = .error

/-- A finding with warnings made errors. -/
def promoted (d : Diagnostic) : Diagnostic :=
  if d.severity = .warning then { d with severity := .error } else d

end Diagnostic

/-- Whether there is an error among some findings. -/
def hasErrors (found : List Diagnostic) : Bool :=
  found.any Diagnostic.isError

end FieldShadow
