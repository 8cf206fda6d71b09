import FieldShadow.HiddenField.Exemption

/-!
# Log

The events that are worth a line in a log, with the level and wording of that line.
-/

namespace FieldShadow

/-- The levels of log lines. -/
inductive LogLevel where
  | error
  | warn
  | debug
  | trace
  deriving DecidableEq, Repr

/-- The name of a level. -/
def LogLevel.name : LogLevel → String
  | .error => "ERROR"
  | .warn => "WARN"
  | .debug => "DEBUG"
  | .trace => "TRACE"

/-- What is logged. -/
inductive LogEvent where
  | propertyApplied (key value : String)
  | framePushed (index : Nat) (isStatic : Bool)
  | framePopped (index : Nat)
  | declarationChecked (kind : DeclarationKind) (name : String) (position : Position)
    (isStatic : Bool)
  | declarationExempted (name : String) (position : Position) (exemption : Exemption)
  | limitReached (limit count : Nat)
  | errorRecorded (text : String)
  deriving DecidableEq, Repr

namespace LogEvent

/-- The level of an event. -/
def level : LogEvent → LogLevel
  | .propertyApplied .. | .framePushed .. | .framePopped .. | .declarationExempted .. => .debug
  | .declarationChecked .. => .trace
  | .limitReached .. => .warn
  | .errorRecorded .. => .error

/-- A declaration and its place. -/
def place (name : String) (p : Position) : String :=
  "'" ++ name ++ "' at " ++ toString p.line ++ ":" ++ toString p.column

/-- The wording of an event. -/
def text : LogEvent → String
  | .propertyApplied key value => "applied configuration property " ++ key ++ " = " ++ value
  | .framePushed index isStatic =>
    "pushed scope frame " ++ toString index ++ " (static: " ++ toString isStatic ++ ")"
  | .framePopped index => "popped scope frame " ++ toString index
  | .declarationChecked kind name p isStatic =>
    "checking " ++ kind.name ++ " " ++ place name p ++ " (static context: " ++
      toString isStatic ++ ")"
  | .declarationExempted name p exemption => place name p ++ " exempted by " ++ exemption.name
  | .limitReached limit count =>
    "error limit of " ++ toString limit ++ " reached, " ++ toString count ++ " errors found"
  | .errorRecorded text => Text.quote text

/-- The line of an event. -/
def line (e : LogEvent) : String :=
  e.level.name ++ " " ++ e.text

end LogEvent

end FieldShadow
