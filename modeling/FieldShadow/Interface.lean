import FieldShadow.Analyzer
import FieldShadow.Diagnostic.Report
import FieldShadow.Pattern.Engine

/-!
# The interface for other programs

Other programs hand over texts as bytes that end at the first zero, or no text at all. A call gives
a report, or nothing and an error that can be asked for afterwards.
-/

namespace FieldShadow

/-- Why a call gives no report. -/
inductive InterfaceError where
  | noSource
  | malformedText (e : Text.Utf8Error)
  | failed (e : LintError)
  | unsendable
  deriving DecidableEq, Repr

/-- The wording of an error of a call. -/
def InterfaceError.message : InterfaceError → String
  | .noSource => "the passed source pointer is null"
  | .malformedText e => (LintError.malformedText e).message
  | .failed e => "check failed: " ++ e.message
  | .unsendable => "failed to create CString from the report"

namespace Interface

/-- Whether a text can be handed over: one that holds a zero character cannot. -/
def isSendable (text : String) : Bool :=
  !text.toList.contains '\x00'

/-- The text in some bytes, which end at the first zero. -/
def readText (bytes : List UInt8) : Except InterfaceError String :=
  (Text.decodeUtf8 (bytes.takeWhile (· != 0))).mapError .malformedText

/-- The name that a source has in reports. -/
def reportStyle : ReportStyle :=
  ⟨"<input>", false⟩

/-- Checks a source text under a configuration text and writes the report. -/
def checkText [PatternEngine] (source : String) (config? : Option String) :
    Except LintError String × List LogEvent :=
  match Config.load config? with
  | (.error e, log) => (.error e, log)
  | (.ok config, log) =>
    let checked := (Analyzer.new config).check source
    (checked.result.map (report reportStyle source), log ++ checked.log)

/-- A report as it is handed over. -/
def send (report : String) : Except InterfaceError String :=
  if isSendable report then .ok report else .error .unsendable

/-- Answers a call. -/
def answer [PatternEngine] (source? config? : Option (List UInt8)) :
    Except InterfaceError String × List LogEvent :=
  match source? with
  | none => (.error .noSource, [])
  | some source =>
    match readText source, config?.mapM readText with
    | .error e, _ => (.error e, [])
    | _, .error e => (.error e, [])
    | .ok source, .ok config? =>
      let (result, log) := checkText source config?
      (result.mapError .failed >>= send, log)

end Interface

/-- The errors that were recorded so far, latest last. -/
structure ErrorList where
  errors : List String
  deriving DecidableEq, Repr

namespace ErrorList

/-- No errors. -/
def empty : ErrorList :=
  ⟨[]⟩

/-- Records an error. -/
def record (l : ErrorList) (error : String) : ErrorList :=
  ⟨l.errors ++ [error]⟩

/-- The latest error, if it can be handed over. -/
def last? (l : ErrorList) : Option String :=
  l.errors.getLast?.filter Interface.isSendable

/-- Answers a call and records its error: the report if there is one, the errors afterwards, and
what is logged. -/
def check [PatternEngine] (l : ErrorList) (source? config? : Option (List UInt8)) :
    Option String × ErrorList × List LogEvent :=
  match Interface.answer source? config? with
  | (.ok report, log) => (some report, l, log)
  | (.error e, log) => (none, l.record e.message, log ++ [.errorRecorded e.message])

end ErrorList

/-- What other programs call: they have a source checked under a configuration, ask for the latest
error, or give back no text at all. -/
inductive Call where
  | check (source? config? : Option (List UInt8))
  | lastError
  | releaseNothing
  deriving DecidableEq, Repr

/-- A call with the errors before and after it, and the text that was handed over if there was
one. -/
structure Exchange where
  call : Call
  before : ErrorList
  answer? : Option String
  after : ErrorList

namespace ErrorList

/-- Answers one call. -/
def exchange [PatternEngine] (l : ErrorList) : Call → Exchange
  | .check source? config? =>
    let (report?, after, _) := l.check source? config?
    ⟨.check source? config?, l, report?, after⟩
  | .lastError => ⟨.lastError, l, l.last?, l⟩
  | .releaseNothing => ⟨.releaseNothing, l, none, l⟩

/-- Answers calls one after the other. -/
def exchanges [PatternEngine] (l : ErrorList) : List Call → List Exchange
  | [] => []
  | call :: calls =>
    let x := l.exchange call
    x :: x.after.exchanges calls

end ErrorList

end FieldShadow
