import FieldShadow.Config
import FieldShadow.LintError
import FieldShadow.Log
import FieldShadow.Text.Count
import FieldShadow.Text.Line

/-!
# Configuration texts

A configuration text has one `key = value` in a line; blank lines and lines that start with `#` or
`!` say nothing. Every key has a handler, which changes the configuration or refuses the value. The
first line that is refused decides the error.
-/

namespace FieldShadow

/-- How the value of a property changes a configuration. -/
abbrev Handler := String → Config → Except LintError Config

namespace Handler

/-- A property that is `true` or `false`, in letters of any case. -/
def flag (property : String) (set : Bool → Config → Config) : Handler := fun value c =>
  match value.toLower with
  | "true" => .ok (set true c)
  | "false" => .ok (set false c)
  | _ => .error (.invalidValue property value)

/-- Changes the settings of the rule. -/
def settings (change : Settings → Settings) (c : Config) : Config :=
  { c with hiddenField := change c.hiddenField }

/-- The pattern of names that are never reported. -/
def ignoreFormat [PatternEngine] : Handler := fun value c =>
  match c.hiddenField.withFormat? value with
  | some s => .ok { c with hiddenField := s }
  | none => .error (.invalidPattern value)

/-- The kinds that the items of a list name. -/
def kindsOf : List String → Except LintError DeclarationKinds
  | [] => .ok ⟨false, false⟩
  | "VARIABLE_DEF" :: items => (kindsOf items).map fun kinds => { kinds with locals := true }
  | "PARAMETER_DEF" :: items => (kindsOf items).map fun kinds => { kinds with parameters := true }
  | item :: _ => .error (.invalidValue "tokens" item)

/-- The kinds of declarations that are checked. There has to be one, since the rule would be
switched off otherwise. -/
def tokens : Handler := fun value c => do
  let kinds ← kindsOf (Text.listItems value)
  if !kinds.locals && !kinds.parameters then .error (.invalidValue "tokens" value)
  else .ok (settings (fun s => { s with kinds }) c)

/-- The severity of what the rule reports. -/
def severity : Handler := fun value c =>
  match Severity.ofName? value with
  | some severity => .ok (settings (fun s => { s with severity }) c)
  | none => .error (.invalidValue "severity" value)

/-- The rules that are switched off. -/
def disabledRules : Handler := fun value c =>
  .ok { c with disabledRules := Text.listItems value }

/-- The greatest number of errors that are reported. -/
def errorLimit : Handler := fun value c =>
  match Text.parseCount? value with
  | some limit => .ok { c with errorLimit? := some limit }
  | none => .error (.invalidValue "errorLimit" value)

end Handler

/-- The handlers of all known properties. -/
structure ConfigLoader where
  handlers : List (String × Handler)

namespace ConfigLoader

/-- The built-in properties. -/
def standard [PatternEngine] : ConfigLoader where
  handlers :=
    [("ignoreFormat", Handler.ignoreFormat),
     ("ignoreSetter", Handler.flag "ignoreSetter" fun b =>
       Handler.settings fun s => { s with ignoreSetter := b }),
     ("setterCanReturnItsClass", Handler.flag "setterCanReturnItsClass" fun b =>
       Handler.settings fun s => { s with setterCanReturnItsClass := b }),
     ("ignoreConstructorParameter", Handler.flag "ignoreConstructorParameter" fun b =>
       Handler.settings fun s => { s with ignoreConstructorParameter := b }),
     ("ignoreAbstractMethods", Handler.flag "ignoreAbstractMethods" fun b =>
       Handler.settings fun s => { s with ignoreAbstractMethods := b }),
     ("tokens", Handler.tokens),
     ("severity", Handler.severity),
     ("disabledRules", Handler.disabledRules),
     ("warningAsError", Handler.flag "warningAsError" fun b c => { c with warningAsError := b }),
     ("errorLimit", Handler.errorLimit)]

/-- Gives a property a handler, in place of the one it has. -/
def register (l : ConfigLoader) (name : String) (handler : Handler) : ConfigLoader :=
  ⟨(name, handler) :: l.handlers⟩

/-- The handler of a property. -/
def handler? (l : ConfigLoader) (name : String) : Option Handler :=
  l.handlers.lookup name

end ConfigLoader

/-- What a line of a configuration text says. -/
inductive ConfigLine where
  | nothing
  | setting (key value : String)
  | malformed (line : String)
  deriving DecidableEq, Repr

/-- Reads a line. The key ends at the first equals sign; white space around key and value does not
count. -/
def ConfigLine.ofText (text : String) : ConfigLine :=
  let line := Text.trim text
  if line = "" ∨ line.toList.head? = some '#' ∨ line.toList.head? = some '!' then .nothing
  else match Text.splitOnce? '=' line with
    | none => .malformed line
    | some (key, value) => .setting (Text.trim key) (Text.trim value)

namespace ConfigLoader

/-- Applies one line. -/
def applyLine (l : ConfigLoader) (c : Config) : ConfigLine → Except LintError Config
  | .nothing => .ok c
  | .malformed line => .error (.malformedLine line)
  | .setting key value =>
    match l.handler? key with
    | none => .error (.unknownProperty key)
    | some handler => handler value c

/-- What is logged of a line that was applied. -/
def lineLog : ConfigLine → List LogEvent
  | .setting key value => [.propertyApplied key value]
  | .nothing | .malformed _ => []

/-- Applies lines up to the first that is refused, and logs those that were applied. -/
def applyLines (l : ConfigLoader) (c : Config) :
    List ConfigLine → Except LintError Config × List LogEvent
  | [] => (.ok c, [])
  | line :: lines =>
    match l.applyLine c line with
    | .error e => (.error e, [])
    | .ok c' =>
      let (result, log) := l.applyLines c' lines
      (result, lineLog line ++ log)

/-- Reads a configuration text, with what is logged. -/
def load (l : ConfigLoader) (text : String) : Except LintError Config × List LogEvent :=
  l.applyLines {} ((Text.lines text).map .ofText)

end ConfigLoader

/-- Reads a configuration text with the built-in properties; without a text the configuration is
the default. -/
def Config.load [PatternEngine] (text? : Option String) :
    Except LintError Config × List LogEvent :=
  match text? with
  | none => (.ok {}, [])
  | some text => ConfigLoader.standard.load text

end FieldShadow
