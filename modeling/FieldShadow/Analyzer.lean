import FieldShadow.Config.Load
import FieldShadow.Diagnostic.Limit
import FieldShadow.HiddenField.Rule

/-!
# The analyzer

An analyzer checks source texts one after the other under one configuration. It walks each tree
once and tells all rules that are not switched off of every event.
-/

namespace FieldShadow

/-- A configuration, and the rules with what an earlier check left in them. -/
structure Analyzer where
  config : Config
  registry : Registry HiddenFieldRule

/-- What a check gives: the analyzer afterwards, the findings or an error, and what was logged. -/
structure Checked where
  analyzer : Analyzer
  result : Except LintError (List Diagnostic)
  log : List LogEvent

namespace Analyzer

/-- An analyzer with the built-in rules. -/
def new (config : Config) : Analyzer :=
  ⟨config, Registry.empty.register (.new config.hiddenField)⟩

/-- What the rules say about themselves. -/
def listRules (a : Analyzer) : List RuleInfo :=
  a.registry.infos

/-- Whether a rule is switched on. -/
def isEnabled (config : Config) (rule : HiddenFieldRule) : Bool :=
  !config.disabledRules.contains (Rule.info rule).id

/-- The rules at the start of a walk. -/
def begin (config : Config) (rules : List HiddenFieldRule) : List HiddenFieldRule :=
  rules.map fun rule => if isEnabled config rule then rule.begin else rule

/-- Tells the rules of an event, in their order and up to the first that fails. -/
def dispatch (config : Config) (t : SyntaxTree) :
    List HiddenFieldRule → WalkEvent → Outcome (List HiddenFieldRule)
  | [], _ => .quiet []
  | rule :: rules, e =>
    let told := if isEnabled config rule then rule.step t e else .quiet rule
    told.andThen (· :: rules) fun rule =>
      let o := dispatch config t rules e
      { o with state := rule :: o.state }

/-- Checks a syntax tree. -/
def analyze (a : Analyzer) (t : SyntaxTree) : Checked :=
  let o := Outcome.runAll (dispatch a.config t) (begin a.config a.registry.rules) t.events
  let analyzer := { a with registry := ⟨o.state⟩ }
  match o.failure? with
  | some e => ⟨analyzer, .error e, o.log⟩
  | none => ⟨analyzer, .ok (a.config.postProcess o.found), o.log ++ a.config.postProcessLog o.found⟩

/-- Checks a source text. -/
def check (a : Analyzer) (source : String) : Checked :=
  match tokenize source with
  | .error e => ⟨a, .error (.lexical e), []⟩
  | .ok lexemes =>
    match (Parser.ofLexemes lexemes).next.1 with
    | .error e => ⟨a, .error (.unparsable e), []⟩
    | .ok t => a.analyze t

/-- Checks source texts one after the other. -/
def checkAll (a : Analyzer) : List String → List Checked
  | [] => []
  | source :: sources =>
    let checked := a.check source
    checked :: checked.analyzer.checkAll sources

end Analyzer

end FieldShadow
