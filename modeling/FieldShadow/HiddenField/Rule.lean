import FieldShadow.LintError
import FieldShadow.Rule.Registry
import FieldShadow.Scope
import FieldShadow.SyntaxTree.Walk

/-!
# The hidden-field rule

The rule reports local variables and parameters that have the name of a field of a type around
them. While a walk goes on it keeps a scope frame for each class, enum and enum constant that has
been entered. Only fields that a type body declares directly count. In a static context only static
fields can be hidden, and a static nested class cuts off the instance fields of the types around it.
-/

namespace FieldShadow

/-- What a step of a rule leads to: the rule afterwards, what it found and logged, and why it
failed if it did. -/
structure Outcome (σ : Type) where
  state : σ
  found : List Diagnostic
  log : List LogEvent
  failure? : Option LintError

namespace Outcome

/-- Nothing found, nothing logged. -/
def quiet {σ : Type} (state : σ) : Outcome σ :=
  ⟨state, [], [], none⟩

/-- Goes on with the state of an outcome, unless it was a failure. -/
def andThen {σ τ : Type} (o : Outcome σ) (fail : σ → τ) (next : σ → Outcome τ) : Outcome τ :=
  match o.failure? with
  | some _ => { o with state := fail o.state }
  | none =>
    let p := next o.state
    ⟨p.state, o.found ++ p.found, o.log ++ p.log, p.failure?⟩

/-- Takes steps one after the other up to the first failure. -/
def runAll {σ ε : Type} (step : σ → ε → Outcome σ) (state : σ) : List ε → Outcome σ
  | [] => quiet state
  | e :: es => (step state e).andThen id fun state => runAll step state es

end Outcome

/-- The rule with its settings and the scope that the walk has reached. -/
structure HiddenFieldRule where
  settings : Settings
  scopes : ScopeStack

namespace HiddenFieldRule

/-- The name of the rule. -/
def id : String := "hidden-field"

/-- The rule before a walk. -/
def new (settings : Settings) : HiddenFieldRule :=
  ⟨settings, .new⟩

/-- What the rule says about itself. -/
def info (r : HiddenFieldRule) : RuleInfo where
  id := id
  description :=
    "Checks that a local variable or a parameter does not shadow a field of an enclosing type"
  severity := r.settings.severity

instance : Rule HiddenFieldRule where
  info := info

/-- The rule at the start of a walk: what an earlier one left behind is dropped. -/
def begin (r : HiddenFieldRule) : HiddenFieldRule :=
  { r with scopes := .new }

/-- Whether a static initializer or a static method is met first on the way up from a node. -/
def inStaticContext (t : SyntaxTree) (node : Nat) : Bool :=
  let deciding : NodeKind → Option Bool
    | .staticInit => some true
    | .methodDef _ ms _ => some (ms.contains .static)
    | _ => none
  ((t.ancestorKinds node).findSome? deciding).getD false

/-- Whether a node gets a scope frame, and if it does, whether the frame is static and which name
it has. Only classes give their names. -/
def frame? : NodeKind → Option (Bool × Option String)
  | .classDef name ms => some (ms.contains .static, some name)
  | .enumDef .. | .enumConstant _ => some (false, none)
  | _ => none

/-- Adds the field that a member of a type body declares, if it is one. -/
def harvest (s : ScopeStack) (index : Nat) : NodeKind → ScopeStack
  | .variableDef name ms _ =>
    if ms.contains .static then s.addStatic index name else s.addInstance index name
  | _ => s

/-- The scope inside a type: a frame with the fields that its body declares. -/
def enterScope (s : ScopeStack) (t : SyntaxTree) (node : Nat) (isStatic : Bool)
    (typeName? : Option String) : ScopeStack :=
  let s := s.push isStatic typeName?
  match t.typeBody? node with
  | none => s
  | some body => ((t.children body).filterMap t.kind?).foldl (fun s kind => harvest s s.top kind) s

/-- Enters a type. -/
def enter (r : HiddenFieldRule) (t : SyntaxTree) (node : Nat) : Outcome HiddenFieldRule :=
  match (t.kind? node).bind frame? with
  | none => .quiet r
  | some (isStatic, typeName?) =>
    { state := { r with scopes := enterScope r.scopes t node isStatic typeName? }
      found := []
      log := r.scopes.log (.push isStatic typeName?)
      failure? := none }

/-- Leaves a type. -/
def leave (r : HiddenFieldRule) (t : SyntaxTree) (node : Nat) : Outcome HiddenFieldRule :=
  match (t.kind? node).bind frame? with
  | none => .quiet r
  | some _ =>
    match r.scopes.pop? with
    | none => { Outcome.quiet r with failure? := some .unbalancedScope }
    | some (_, scopes) =>
      { state := { r with scopes }, found := [], log := r.scopes.log .pop, failure? := none }

/-- Whether the rule looks at a declaration: its kind is to be checked, it is not a member of an
interface, and if it is a variable it is a local one. -/
def considers (r : HiddenFieldRule) (t : SyntaxTree) (node : Nat) (kind : DeclarationKind) : Bool :=
  r.settings.kinds.includes kind && !t.inInterfaceBody node &&
    (kind == .parameter || t.isLocalVariable node)

/-- Whether a name is that of a field which a declaration can hide. -/
def isField (r : HiddenFieldRule) (name : String) (isStatic : Bool) : Bool :=
  r.scopes.hasStatic name || (!isStatic && r.scopes.hasInstance name)

/-- The finding that a declaration hides a field. -/
def finding (r : HiddenFieldRule) (name : String) (span : Span) : Diagnostic where
  rule := id
  severity := r.settings.severity
  message := "'" ++ name ++ "' hides a field."
  arguments := [name]
  span := span

/-- Checks a declaration. -/
def declare (r : HiddenFieldRule) (t : SyntaxTree) (node : Nat) : Outcome HiddenFieldRule :=
  match t.node? node with
  | none => .quiet r
  | some n =>
    match n.kind.declares? with
    | none => .quiet r
    | some (name, kind) =>
      if !r.considers t node kind then .quiet r
      else
        let isStatic := inStaticContext t node
        let checked := LogEvent.declarationChecked kind name n.span.start isStatic
        if !r.isField name isStatic then { Outcome.quiet r with log := [checked] }
        else match Exemption.find? r.settings t ⟨node, name, kind, r.scopes.enclosingType?⟩ with
          | some e =>
            { Outcome.quiet r with log := [checked, .declarationExempted name n.span.start e] }
          | none => { Outcome.quiet r with found := [r.finding name n.span], log := [checked] }

/-- Tells the rule of an event. -/
def step (t : SyntaxTree) (r : HiddenFieldRule) : WalkEvent → Outcome HiddenFieldRule
  | .enter node => r.enter t node
  | .leave node => r.leave t node
  | .declaration node => r.declare t node

end HiddenFieldRule

end FieldShadow
