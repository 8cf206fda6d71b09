import FieldShadow.Diagnostic
import FieldShadow.Text.Line

/-!
# Reports

A report shows each finding with its place and, if the source has the line, that line with a caret
under the column.
-/

namespace FieldShadow

/-- What a report is written for. -/
structure ReportStyle where
  fileName : String
  colors : Bool

namespace ReportStyle

/-- The mark for bold text. -/
def bold (s : ReportStyle) : String :=
  if s.colors then "\x1b[1m" else ""

/-- The mark that ends bold and colored text. -/
def reset (s : ReportStyle) : String :=
  if s.colors then "\x1b[0m" else ""

/-- The mark for text in the color of a severity. -/
def color (s : ReportStyle) (severity : Severity) : String :=
  if s.colors then
    match severity with
    | .error => "\x1b[31m"
    | .warning => "\x1b[33m"
    | .info => "\x1b[36m"
  else ""

end ReportStyle

namespace Diagnostic

/-- The line with the place, the severity and the message. -/
def header (d : Diagnostic) (s : ReportStyle) : String :=
  s.bold ++ s.fileName ++ ":" ++ toString d.span.start.line ++ ":" ++
    toString d.span.start.column ++ ":" ++ s.reset ++ " " ++ s.color d.severity ++
    d.severity.name ++ s.reset ++ ": " ++ d.message ++ " [" ++ d.rule ++ "]"

/-- The line of a text with a number, counted from one. -/
def lineAt? (lines : List String) (number : Nat) : Option String :=
  if number = 0 then none else lines[number - 1]?

/-- What stands before the caret: as many characters as the line has before the column. Tabs are
kept, so that the caret stands under its column. -/
def padding (line : String) (column : Nat) : String :=
  String.ofList ((line.toList.take (column - 1)).map fun c => if c = '\t' then '\t' else ' ')

/-- The lines of a report about one finding. -/
def reportLines (d : Diagnostic) (s : ReportStyle) (lines : List String) : List String :=
  d.header s :: match lineAt? lines d.span.start.line with
    | none => []
    | some line =>
      ["    " ++ line,
       "    " ++ padding line d.span.start.column ++ s.color d.severity ++ "^" ++ s.reset]

end Diagnostic

/-- The report about some findings in a source text. -/
def report (s : ReportStyle) (source : String) (found : List Diagnostic) : String :=
  let lines := Text.lines source
  String.join ((found.flatMap fun d => d.reportLines s lines).map (· ++ "\n"))

end FieldShadow
