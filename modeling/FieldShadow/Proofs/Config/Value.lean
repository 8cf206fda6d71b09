import FieldShadow.Config.Load
import Mathlib.Data.List.Infix

/-!
# The values of properties

A configuration is what is read from one value for each property (`Config.ofValues`), and each
handler changes the value of its own property only, or refuses it whatever else is configured
(`Handler.Reads`, `ConfigLoader.reads_of_handler?`). The engine that compiles patterns is any: which
texts it takes is all that is asked of it here.

Where an example has to have an engine, it opens `Pattern.Plain`, whose patterns are texts without
special characters.
-/

namespace FieldShadow

open Text

/-! ## Patterns without special characters -/

namespace Pattern.Plain

/-- An engine for patterns whose characters stand for themselves: they match where they occur. -/
scoped instance engine : PatternEngine where
  compile? text :=
    if text.toList.any "\\.+*?()|[]\x7b\x7d^$".toList.contains then none
    else some ⟨text, fun name => decide (text.toList <:+: name.toList)⟩

scoped instance lawful_engine : LawfulPatternEngine where
  text_of_compile? h := by
    obtain ⟨-, h⟩ := Option.ite_none_left_eq_some.mp h
    obtain rfl := Option.some.inj h
    rfl

end Pattern.Plain

/-! ## Values -/

namespace Config

/-- Whether a value switches a flag on. -/
def flagOf (value : String) : Bool :=
  value.toLower = "true"

/-- The kinds of declarations that a list names. -/
def kindsNamed (value : String) : DeclarationKinds :=
  ⟨(listItems value).contains "VARIABLE_DEF", (listItems value).contains "PARAMETER_DEF"⟩

/-- The configuration in which each property has what is read from its value, or its default. -/
def ofValues [PatternEngine] (value? : String → Option String) : Config where
  disabledRules := (value? "disabledRules").elim [] listItems
  warningAsError := (value? "warningAsError").elim false flagOf
  errorLimit? := (value? "errorLimit").bind parseCount?
  hiddenField :=
    { ignoreFormat? := (value? "ignoreFormat").bind PatternEngine.compile?
      ignoreSetter := (value? "ignoreSetter").elim false flagOf
      setterCanReturnItsClass := (value? "setterCanReturnItsClass").elim false flagOf
      ignoreConstructorParameter := (value? "ignoreConstructorParameter").elim false flagOf
      ignoreAbstractMethods := (value? "ignoreAbstractMethods").elim false flagOf
      kinds := (value? "tokens").elim ⟨true, true⟩ kindsNamed
      severity := ((value? "severity").bind Severity.ofName?).getD .error }

/-- Without values every property has its default. -/
theorem ofValues_none [PatternEngine] : ofValues (fun _ => none) = {} :=
  rfl

/-- Values with one for a key in place of the one that this had. -/
def setValue (value? : String → Option String) (key value : String) : String → Option String :=
  fun k => if k = key then some value else value? k

@[simp] theorem setValue_self (value? : String → Option String) (key value : String) :
    setValue value? key value key = some value :=
  if_pos rfl

@[simp] theorem setValue_ne {key k : String} (h : k ≠ key) (value? : String → Option String)
    (value : String) : setValue value? key value k = value? k :=
  if_neg h

/-- Why a flag refuses a value. -/
def flagRefusal? (property value : String) : Option LintError :=
  if value.toLower = "true" ∨ value.toLower = "false" then none
  else some (.invalidValue property value)

/-- Why a list of kinds is refused: an item names none, or there is no item. -/
def kindsRefusal? (value : String) : Option LintError :=
  match (listItems value).find? fun item => item ≠ "VARIABLE_DEF" ∧ item ≠ "PARAMETER_DEF" with
  | some item => some (.invalidValue "tokens" item)
  | none => if listItems value = [] then some (.invalidValue "tokens" value) else none

/-- Why the value of a property is refused. -/
def refusal? [PatternEngine] (key value : String) : Option LintError :=
  match key with
  | "ignoreFormat" =>
    if (PatternEngine.compile? value).isNone then some (.invalidPattern value) else none
  | "ignoreSetter" | "setterCanReturnItsClass" | "ignoreConstructorParameter"
  | "ignoreAbstractMethods" | "warningAsError" => flagRefusal? key value
  | "tokens" => kindsRefusal? value
  | "severity" =>
    if (Severity.ofName? value).isNone then some (.invalidValue "severity" value) else none
  | "disabledRules" => none
  | "errorLimit" =>
    if (parseCount? value).isNone then some (.invalidValue "errorLimit" value) else none
  | _ => some (.unknownProperty key)

end Config

/-! ## Handlers -/

namespace Handler

open Config

/-- Whether a handler reads the property of a key: it refuses values whatever else is configured,
and those that it takes are in place of the one before. -/
def Reads [PatternEngine] (handler : Handler) (key : String) : Prop :=
  ∀ value? value, handler value (ofValues value?) =
    match refusal? key value with
    | some e => .error e
    | none => .ok (ofValues (setValue value? key value))

/-- A handler of truth values fails with its refusal or sets what it reads. -/
theorem flag_eq (property : String) (set : Bool → Config → Config) (value : String) (c : Config) :
    flag property set value c =
      match flagRefusal? property value with
      | some e => .error e
      | none => .ok (set (flagOf value) c) := by
  unfold flag
  split
  · next h => simp [flagRefusal?, flagOf, h]
  · next h => simp [flagRefusal?, flagOf, h]
  · next h h' => rw [flagRefusal?, if_neg (not_or.mpr ⟨h, h'⟩)]

/-- The kinds of a list are refused by the first item that names none. -/
theorem kindsOf_eq (items : List String) :
    kindsOf items =
      match items.find? fun item => item ≠ "VARIABLE_DEF" ∧ item ≠ "PARAMETER_DEF" with
      | some item => .error (.invalidValue "tokens" item)
      | none => .ok ⟨items.contains "VARIABLE_DEF", items.contains "PARAMETER_DEF"⟩ := by
  fun_induction kindsOf items with
  | case1 => rfl
  | case2 items ih =>
    rw [ih, List.find?_cons_of_neg (by simp)]
    split <;> simp [Except.map]
  | case3 items ih =>
    rw [ih, List.find?_cons_of_neg (by simp)]
    split <;> simp [Except.map]
  | case4 item items hlocals hparameters =>
    rw [List.find?_cons_of_pos (by simpa using ⟨hlocals, hparameters⟩)]

/-- A list of kinds that has an item names one. -/
theorem named_of_find?_eq_none {items : List String}
    (h : items.find? (fun item => item ≠ "VARIABLE_DEF" ∧ item ≠ "PARAMETER_DEF") = none) :
    (!items.contains "VARIABLE_DEF" && !items.contains "PARAMETER_DEF") = true ↔ items = [] := by
  cases items with
  | nil => simp
  | cons item items =>
    have hitem := List.find?_eq_none.mp h item List.mem_cons_self
    by_cases hlocals : item = "VARIABLE_DEF"
    · simp [hlocals]
    · have hparameters : item = "PARAMETER_DEF" := by simpa [hlocals] using hitem
      simp [hparameters]

/-- The handler of kinds fails with its refusal or sets what is named. -/
theorem tokens_eq (value : String) (c : Config) :
    tokens value c =
      match kindsRefusal? value with
      | some e => .error e
      | none => .ok (settings (fun s => { s with kinds := kindsNamed value }) c) := by
  rw [tokens, kindsOf_eq, kindsRefusal?]
  cases hfind : (listItems value).find?
      fun item => item ≠ "VARIABLE_DEF" ∧ item ≠ "PARAMETER_DEF" with
  | some item => rfl
  | none =>
    simp only [bind, Except.bind, named_of_find?_eq_none hfind]
    split <;> rfl

variable [PatternEngine]

/-- A handler of truth values reads its property if it refuses what the property refuses, and sets
what the property holds. -/
theorem reads_flag {property : String} {set : Bool → Config → Config}
    (hrefusal : ∀ value, refusal? property value = flagRefusal? property value)
    (hset : ∀ value? value, set (flagOf value) (ofValues value?) =
      ofValues (setValue value? property value)) : (flag property set).Reads property := by
  intro value? value
  rw [flag_eq, hrefusal, hset]

/-- The handler of the pattern sets what its text compiles to, and refuses what does not compile. -/
theorem reads_ignoreFormat : ignoreFormat.Reads "ignoreFormat" := by
  intro value? value
  cases h : PatternEngine.compile? value <;>
    simp [ignoreFormat, Settings.withFormat?, refusal?, h, ofValues]

/-- The handler of kinds reads its property. -/
theorem reads_tokens : tokens.Reads "tokens" := by
  intro value? value
  rw [tokens_eq]
  cases h : kindsRefusal? value <;> simp [refusal?, h, settings, ofValues]

/-- The handler of the severity reads its property. -/
theorem reads_severity : severity.Reads "severity" := by
  intro value? value
  cases h : Severity.ofName? value <;>
    simp [severity, refusal?, h, settings, ofValues]

/-- The handler of rules switched off refuses nothing. -/
theorem reads_disabledRules : disabledRules.Reads "disabledRules" := by
  intro value? value
  simp [disabledRules, refusal?, ofValues]

/-- The handler of the limit refuses what is no count. -/
theorem reads_errorLimit : errorLimit.Reads "errorLimit" := by
  intro value? value
  cases h : parseCount? value <;> simp [errorLimit, refusal?, h, ofValues]

/-- Each built-in handler reads the property of its key. -/
theorem reads_of_mem {key : String} {handler : Handler}
    (h : (key, handler) ∈ ConfigLoader.standard.handlers) : handler.Reads key := by
  simp only [ConfigLoader.standard, List.mem_cons, Prod.mk.injEq, List.not_mem_nil, or_false] at h
  rcases h with ⟨rfl, rfl⟩ | ⟨rfl, rfl⟩ | ⟨rfl, rfl⟩ | ⟨rfl, rfl⟩ | ⟨rfl, rfl⟩ | ⟨rfl, rfl⟩ |
    ⟨rfl, rfl⟩ | ⟨rfl, rfl⟩ | ⟨rfl, rfl⟩ | ⟨rfl, rfl⟩
  · exact reads_ignoreFormat
  · exact reads_flag (fun _ => rfl) fun _ _ => by simp [settings, ofValues]
  · exact reads_flag (fun _ => rfl) fun _ _ => by simp [settings, ofValues]
  · exact reads_flag (fun _ => rfl) fun _ _ => by simp [settings, ofValues]
  · exact reads_flag (fun _ => rfl) fun _ _ => by simp [settings, ofValues]
  · exact reads_tokens
  · exact reads_severity
  · exact reads_disabledRules
  · exact reads_flag (fun _ => rfl) fun _ _ => by simp [ofValues]
  · exact reads_errorLimit

end Handler

namespace ConfigLoader

open Config

variable [PatternEngine]

/-- A property without a handler is unknown, whatever its value. -/
theorem refusal?_of_handler? {key : String} (h : standard.handler? key = none) (value : String) :
    refusal? key value = some (.unknownProperty key) := by
  have hkeys := List.lookup_eq_none_iff.mp h
  unfold refusal?
  split
  case h_11 => rfl
  all_goals simp [standard] at hkeys

/-- Every handler of the table reads the property that it stands for. -/
theorem reads_of_handler? {key : String} {handler : Handler}
    (h : standard.handler? key = some handler) : handler.Reads key := by
  obtain ⟨front, rest, hentries, -⟩ := List.lookup_eq_some_iff.mp h
  exact Handler.reads_of_mem (by simp [hentries])

end ConfigLoader

end FieldShadow
