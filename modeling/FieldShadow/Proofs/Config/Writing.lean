import FieldShadow.Proofs.Config.LastLine

/-!
# Writing a configuration

A configuration is written with one `key = value` line for each property that is set. The values
that can come out of a configuration text are those that such lines can hold (`exists_load_iff`), so
what was loaded can be written and loaded again (`load_of_perm`). Nothing is quoted: a pattern may
have equals signs, number signs, commas and carriage returns inside, since only its ends are trimmed
and only the first equals sign of a line counts.

Patterns are written as their texts. That they come out the same needs of the engine only that a
compiled pattern gives back its text.
-/

namespace FieldShadow

open Text

/-! ## Values -/

namespace Text

/-- Whether a text is the value of a line: it is on one line and without white space around it. -/
structure IsValue (value : String) : Prop where
  lineFeed : '\n' ∉ value.toList
  trim : trim value = value

/-- Whether a text is an item of a list. -/
structure IsItem (item : String) : Prop extends IsValue item where
  ne_empty : item ≠ ""
  comma : ',' ∉ item.toList

theorem trim_eq_self {s : String} : Text.trim s = s ↔ trimSpace s.toList = s.toList := by
  rw [← String.toList_inj, Text.trim, String.toList_ofList]

/-- What is trimmed and has no line feed is a value. -/
theorem isValue_trim {s : String} (h : '\n' ∉ s.toList) : IsValue (Text.trim s) :=
  ⟨mt mem_of_mem_trim h, by simp [Text.trim, trimSpace_trimSpace]⟩

/-- The items that are read from a value can be written again. -/
theorem isItem_of_mem_listItems {value item : String} (hvalue : '\n' ∉ value.toList)
    (hitem : item ∈ listItems value) : IsItem item := by
  have hfeed : '\n' ∉ item.toList := mt (mem_of_mem_listItems hitem) hvalue
  obtain ⟨hitem, hne⟩ := List.mem_filter.mp hitem
  obtain ⟨field, hfield, rfl⟩ := List.mem_map.mp hitem
  have hcomma := mt mem_of_mem_trimSpace (not_mem_of_mem_splitFields hfield)
  have htrim : Text.trim (String.ofList (trimSpace field)) = String.ofList (trimSpace field) := by
    simp [Text.trim, trimSpace_trimSpace]
  exact ⟨⟨hfeed, htrim⟩, by simpa using hne, by simpa using hcomma⟩

/-- Items that are written with commas between them are read again. -/
theorem listItems_intercalate {items : List String} (h : ∀ item ∈ items, IsItem item) :
    listItems (", ".intercalate items) = items := by
  cases items with
  | nil => rfl
  | cons first items =>
    obtain ⟨hfirst, hitems⟩ := List.forall_mem_cons.mp h
    have hfields : splitFields ',' (", ".intercalate (first :: items)).toList =
        first.toList :: (items.map String.toList).map (' ' :: ·) := by
      rw [String.toList_intercalate, List.map_cons]
      refine splitFields_intercalate (by decide) hfirst.comma ?_
      rintro _ hfield
      obtain ⟨item, hitem, rfl⟩ := List.mem_map.mp hfield
      exact (hitems item hitem).comma
    -- the space that stands behind a comma is trimmed off
    have htrim : ∀ item ∈ items, String.ofList (trimSpace (' ' :: item.toList)) = item := by
      intro item hitem
      have hspace : White [' '] := white_of_all (by decide)
      have haround := trimSpace_around hspace white_nil item.toList
      rw [List.append_nil, List.singleton_append] at haround
      rw [haround]
      exact (hitems item hitem).trim
    have hmap : (splitFields ',' (", ".intercalate (first :: items)).toList).map
        (fun field => String.ofList (trimSpace field)) = first :: items := by
      rw [hfields, List.map_cons, List.map_map, List.map_map]
      exact congr (congrArg List.cons hfirst.trim)
        ((List.map_congr_left htrim).trans (List.map_id _))
    rw [listItems, hmap, List.filter_eq_self]
    exact fun item hitem => by simpa using (h item hitem).ne_empty

/-- Items with commas between them are a value, since neither end is white. -/
theorem isValue_intercalate {items : List String} (h : ∀ item ∈ items, IsItem item) :
    IsValue (", ".intercalate items) := by
  constructor
  · induction items with
    | nil => exact List.not_mem_nil
    | cons first items ih =>
      obtain ⟨hfirst, hitems⟩ := List.forall_mem_cons.mp h
      cases items with
      | nil => simpa using hfirst.lineFeed
      | cons second items =>
        rw [String.intercalate_cons_cons, String.toList_append, String.toList_append,
          List.mem_append, List.mem_append]
        exact not_or.mpr ⟨not_or.mpr ⟨hfirst.lineFeed, by decide⟩, ih hitems⟩
  · cases items with
    | nil => rfl
    | cons first items =>
      rw [trim_eq_self, String.toList_intercalate, List.map_cons]
      refine trimSpace_intercalate _ fun piece hpiece => ?_
      rw [← List.map_cons] at hpiece
      obtain ⟨item, hitem, rfl⟩ := List.mem_map.mp hpiece
      exact ⟨by simpa using (h item hitem).ne_empty, trim_eq_self.mp (h item hitem).trim⟩

/-- A number is written with digits. -/
theorem isDigit_of_mem_toDigits {n : Nat} {c : Char} (h : c ∈ Nat.toDigits 10 n) : c.isDigit :=
  Nat.isDigit_of_mem_toDigits (by decide) (by decide) h

/-- No digit is white space, by the codes of both. -/
theorem not_isWhiteSpace_of_isDigit {c : Char} (h : c.isDigit) : ¬ Unicode.isWhiteSpace c := by
  have hdigit : '0'.val ≤ c.val ∧ c.val ≤ '9'.val := by simpa [Char.isDigit] using h
  have hbounds : 0x30 ≤ c.toNat ∧ c.toNat ≤ 0x39 := hdigit
  rw [Unicode.isWhiteSpace, if_pos (by omega)]
  simp only [Bool.or_eq_true, Bool.and_eq_true, decide_eq_true_eq, beq_iff_eq]
  omega

/-- The digits of a number are worth the number, by the recursion that writes them. -/
theorem digitsValue_toDigits (n : Nat) : digitsValue (Nat.toDigits 10 n) = n := by
  have hvalue := Nat.ofDigitChars_toDigits (b := 10) (n := n) (by decide) (by decide)
  simpa [Nat.ofDigitChars, digitsValue, Nat.mul_comm] using hvalue

/-- A number that fits is read from its digits. -/
theorem parseCount?_toString {n : Nat} (h : n < countBound) :
    parseCount? (toString n) = some n := by
  have hunsigned : unsigned (Nat.toDigits 10 n) = Nat.toDigits 10 n := by
    unfold unsigned
    split
    · next ds heq =>
      have hplus := isDigit_of_mem_toDigits (heq ▸ List.mem_cons_self)
      exact absurd hplus (by decide)
    · rfl
  have hfits : Nat.toDigits 10 n ≠ [] ∧ (Nat.toDigits 10 n).all Char.isDigit ∧
      digitsValue (Nat.toDigits 10 n) < countBound :=
    ⟨Nat.toDigits_ne_nil, List.all_eq_true.mpr fun _ => isDigit_of_mem_toDigits,
      by rwa [digitsValue_toDigits]⟩
  rw [parseCount?, Nat.toString_eq_ofList_toDigits, String.toList_ofList, hunsigned,
    if_pos hfits, digitsValue_toDigits]

/-- A count that was read is below the bound, so that it can be written and read again. -/
theorem lt_of_parseCount? {s : String} {n : Nat} (h : parseCount? s = some n) :
    n < countBound := by
  obtain ⟨⟨-, -, hfits⟩, hn⟩ := Option.ite_none_right_eq_some.mp h
  exact Option.some.inj hn ▸ hfits

/-- A number is a value. -/
theorem isValue_toString (n : Nat) : IsValue (toString n) := by
  have hdigit : ∀ c ∈ (toString n).toList, c.isDigit := by
    rw [Nat.toString_eq_ofList_toDigits, String.toList_ofList]
    exact fun _ => isDigit_of_mem_toDigits
  refine ⟨fun h => absurd (hdigit _ h) (by decide), trim_eq_self.mpr (trimSpace_eq_self.mpr ?_)⟩
  exact ⟨fun c hc => not_isWhiteSpace_of_isDigit (hdigit c (List.mem_of_mem_head? hc)),
    fun c hc => not_isWhiteSpace_of_isDigit (hdigit c (List.mem_of_getLast? hc))⟩

end Text

/-! ## Lines -/

namespace ConfigLine

open ConfigLoader

/-- Whether a line can begin with a key. -/
structure IsKey (key : String) : Prop extends IsValue key where
  equals : '=' ∉ key.toList
  number : key.toList.head? ≠ some '#'
  exclamation : key.toList.head? ≠ some '!'

/-- The line of a key and a value. -/
def line (row : String × String) : String :=
  row.1 ++ " = " ++ row.2

/-- The text that has a line for each key and its value. -/
def written (rows : List (String × String)) : String :=
  String.join (rows.map fun row => line row ++ "\n")

/-- A line that was written says its key and its value: the first `=` is the one that was put
between them, since no key has one. -/
theorem says?_line {key value : String} (hkey : IsKey key) (hvalue : IsValue value) :
    says? (line (key, value)) = some (.setting key value) := by
  have hspace : White [' '] := white_of_all (by decide)
  have hline : line (key, value) = String.ofList
      ([] ++ key.toList ++ [' '] ++ '=' :: ([' '] ++ value.toList ++ [])) := by
    simp [← String.toList_inj, line]
  have htrim := trim_eq_self.mp hkey.trim
  have hfront := dropFront_eq_self.mpr (trimSpace_eq_self.mp htrim).1
  rw [hline, says?_spaced hkey.equals white_nil hspace hspace white_nil,
    says?_separated hkey.equals, hfront,
    if_neg (not_or.mpr ⟨hkey.number, hkey.exclamation⟩), htrim, trim_eq_self.mp hvalue.trim,
    String.ofList_toList, String.ofList_toList]

variable {rows : List (String × String)}

/-- What was written has one line for each row, and an empty one behind the last line feed. -/
theorem rawLines_written (h : ∀ row ∈ rows, IsKey row.1 ∧ IsValue row.2) :
    rawLines (written rows) = rows.map line ++ [""] := by
  induction rows with
  | nil => rfl
  | cons row rows ih =>
    obtain ⟨hrow, hrows⟩ := List.forall_mem_cons.mp h
    have hfeed : '\n' ∉ (line row).toList := by
      simp [line, hrow.1.lineFeed, hrow.2.lineFeed]
    have hwritten : (written (row :: rows)).toList =
        (line row).toList ++ '\n' :: (written rows).toList := by
      simp [written, String.join_cons]
    rw [rawLines, hwritten, splitFields_append_cons hfeed, List.map_cons, String.ofList_toList,
      List.map_cons, List.cons_append, ← ih hrows, rawLines]

/-- The lines that were written say the rows, in order. -/
theorem filterMap_says?_line (h : ∀ row ∈ rows, IsKey row.1 ∧ IsValue row.2) :
    (rows.map line).filterMap says? = rows.map fun row => .setting row.1 row.2 := by
  induction rows with
  | nil => rfl
  | cons row rows ih =>
    obtain ⟨⟨hkey, hvalue⟩, hrows⟩ := List.forall_mem_cons.mp h
    rw [List.map_cons, List.map_cons, List.filterMap_cons_some (says?_line hkey hvalue), ih hrows]

end ConfigLine

namespace ConfigLoader

open Config ConfigLine

variable [PatternEngine] {rows : List (String × String)}

/-- Settings that are taken, each of which gives its key the same value `final?`. -/
theorem applyLines_settings {final? : String → Option String}
    (h : ∀ row ∈ rows, refusal? row.1 row.2 = none ∧ final? row.1 = some row.2)
    (value? : String → Option String) :
    (standard.applyLines (.ofValues value?) (rows.map fun row => .setting row.1 row.2)).1 =
      .ok (.ofValues fun key =>
        if key ∈ rows.map Prod.fst then final? key else value? key) := by
  induction rows generalizing value? with
  | nil => simp [applyLines]
  | cons row rows ih =>
    obtain ⟨key, value⟩ := row
    obtain ⟨⟨hrefusal, hfinal⟩, hrows⟩ := List.forall_mem_cons.mp h
    have hline : standard.applyLine (.ofValues value?) (.setting key value) =
        .ok (.ofValues (setValue value? key value)) := by
      cases hhandler : standard.handler? key with
      | none => simp [refusal?_of_handler? hhandler] at hrefusal
      | some handler =>
        simp only [applyLine, hhandler, reads_of_handler? hhandler value? value, hrefusal]
    -- a key that comes again is overwritten with the same final value
    have hvalues : (fun k => if k ∈ rows.map Prod.fst then final? k
          else setValue value? key value k) =
        fun k => if k ∈ ((key, value) :: rows).map Prod.fst then final? k else value? k := by
      funext k
      by_cases hk : k = key
      · simp [hk, hfinal]
      · simp only [List.map_cons, List.mem_cons, hk, false_or, setValue_ne hk]
    rw [List.map_cons, applyLines, hline]
    dsimp only
    rw [ih hrows, hvalues]

/-- Lines for what has a value, in any order, give each property its value. -/
theorem load_written {value? : String → Option String}
    (hmem : ∀ key value, (key, value) ∈ rows ↔ value? key = some value)
    (hlines : ∀ row ∈ rows, IsKey row.1 ∧ IsValue row.2)
    (htaken : ∀ row ∈ rows, refusal? row.1 row.2 = none) :
    (standard.load (written rows)).1 = .ok (.ofValues value?) := by
  have hfinal : ∀ row ∈ rows, refusal? row.1 row.2 = none ∧ value? row.1 = some row.2 :=
    fun row hrow => ⟨htaken row hrow, (hmem row.1 row.2).mp hrow⟩
  -- keys without a row have no value, and those with one have the value of their row
  have hvalues : (fun key => if key ∈ rows.map Prod.fst then value? key else none) = value? := by
    funext key
    split
    · rfl
    · next hkey =>
      refine (Option.eq_none_iff_forall_not_mem.mpr fun value hvalue => hkey ?_).symm
      exact List.mem_map.mpr ⟨(key, value), (hmem key value).mpr hvalue, rfl⟩
  have hsays : (rawLines (written rows)).filterMap says? =
      rows.map fun row => .setting row.1 row.2 := by
    rw [rawLines_written hlines, List.filterMap_append, filterMap_says?_line hlines]
    exact List.append_nil _
  rw [load_eq_rawLines, hsays, ← ofValues_none, applyLines_settings hfinal, hvalues]

end ConfigLoader

/-! ## Configurations -/

namespace Config

open ConfigLine ConfigLoader

/-- The names of the kinds that are checked. -/
def kindNames (kinds : DeclarationKinds) : List String :=
  (if kinds.locals then ["VARIABLE_DEF"] else []) ++
    if kinds.parameters then ["PARAMETER_DEF"] else []

/-- How a property is written, if it is set. -/
def property? (c : Config) (key : String) : Option String :=
  match key with
  | "ignoreFormat" => c.hiddenField.ignoreFormat?.map Pattern.text
  | "ignoreSetter" => some (toString c.hiddenField.ignoreSetter)
  | "setterCanReturnItsClass" => some (toString c.hiddenField.setterCanReturnItsClass)
  | "ignoreConstructorParameter" => some (toString c.hiddenField.ignoreConstructorParameter)
  | "ignoreAbstractMethods" => some (toString c.hiddenField.ignoreAbstractMethods)
  | "tokens" => some (", ".intercalate (kindNames c.hiddenField.kinds))
  | "severity" => some c.hiddenField.severity.name
  | "disabledRules" => some (", ".intercalate c.disabledRules)
  | "warningAsError" => some (toString c.warningAsError)
  | "errorLimit" => c.errorLimit?.map toString
  | _ => none

/-- The properties that are set, each with what is written of it. -/
def properties [PatternEngine] (c : Config) : List (String × String) :=
  standard.handlers.filterMap fun (key, _) => (c.property? key).map (key, ·)

/-- A configuration as a text. -/
def render [PatternEngine] (c : Config) : String :=
  written c.properties

/-- Whether a configuration can be written: its pattern is the one that its text is compiled to,
what is free text in it fits into a line, the limit fits into 64 bits, and there is a kind to
name. -/
structure IsWritable [PatternEngine] (c : Config) : Prop where
  compiled : ∀ p ∈ c.hiddenField.ignoreFormat?, PatternEngine.compile? p.text = some p
  pattern : ∀ p ∈ c.hiddenField.ignoreFormat?, IsValue p.text
  rules : ∀ rule ∈ c.disabledRules, IsItem rule
  limit : ∀ limit ∈ c.errorLimit?, limit < countBound
  kinds : c.hiddenField.kinds.locals ∨ c.hiddenField.kinds.parameters

variable {c : Config} {key value : String}

/-- A configuration writes exactly the properties that it has. -/
theorem mem_properties [PatternEngine] :
    (key, value) ∈ c.properties ↔ c.property? key = some value := by
  constructor
  · intro h
    obtain ⟨⟨k, _⟩, -, hrow⟩ := List.mem_filterMap.mp h
    obtain ⟨v, hvalue, hrow⟩ := Option.map_eq_some_iff.mp hrow
    cases hrow
    exact hvalue
  · intro h
    have hkey : ∃ handler, (key, handler) ∈ standard.handlers := by
      unfold property? at h
      split at h
      case h_11 => cases h
      all_goals simp [standard]
    obtain ⟨handler, hhandler⟩ := hkey
    exact List.mem_filterMap.mpr ⟨_, hhandler, Option.map_eq_some_iff.mpr ⟨_, h, rfl⟩⟩

/-- The key of a property can begin a line. The keys are a fixed list, so this is checked by
computing. -/
theorem isKey_of_property? (h : c.property? key = some value) : IsKey key := by
  unfold property? at h
  split at h
  case h_11 => cases h
  all_goals exact ⟨⟨by decide, by decide +kernel⟩, by decide, by decide, by decide⟩

/-- A truth value is a value. -/
theorem isValue_toString_bool (b : Bool) : IsValue (toString b) := by
  cases b <;> exact ⟨by decide, by decide +kernel⟩

/-- The names of kinds are items. -/
theorem isItem_of_mem_kindNames {kinds : DeclarationKinds} {item : String}
    (h : item ∈ kindNames kinds) : IsItem item := by
  obtain ⟨locals, parameters⟩ := kinds
  have hitem : item = "VARIABLE_DEF" ∨ item = "PARAMETER_DEF" := by
    cases locals <;> cases parameters <;> simp_all [kindNames]
  rcases hitem with rfl | rfl <;>
    exact ⟨⟨by decide, by decide +kernel⟩, by decide, by decide⟩

/-- What is written of a property of a writable configuration is a value, property by property. -/
theorem isValue_of_property? [PatternEngine] (hc : c.IsWritable)
    (h : c.property? key = some value) :
    IsValue value := by
  unfold property? at h
  split at h
  case h_1 =>
    obtain ⟨p, hp, rfl⟩ := Option.map_eq_some_iff.mp h
    exact hc.pattern p hp
  -- the kinds, the severity, the rules and the limit; what is left are truth values
  case h_6 =>
    obtain rfl := Option.some.inj h
    exact isValue_intercalate fun item => isItem_of_mem_kindNames
  case h_7 =>
    obtain rfl := Option.some.inj h
    cases c.hiddenField.severity <;> exact ⟨by decide, by decide +kernel⟩
  case h_8 =>
    obtain rfl := Option.some.inj h
    exact isValue_intercalate hc.rules
  case h_10 =>
    obtain ⟨limit, -, rfl⟩ := Option.map_eq_some_iff.mp h
    exact isValue_toString limit
  case h_11 => cases h
  all_goals
    obtain rfl := Option.some.inj h
    exact isValue_toString_bool _

/-- Kinds that name at least one are not refused. -/
theorem kindsRefusal?_kindNames {kinds : DeclarationKinds}
    (h : kinds.locals ∨ kinds.parameters) :
    kindsRefusal? (", ".intercalate (kindNames kinds)) = none := by
  rw [kindsRefusal?, listItems_intercalate fun item => isItem_of_mem_kindNames]
  obtain ⟨locals, parameters⟩ := kinds
  cases locals <;> cases parameters
  · simp at h
  all_goals rfl

/-- Kinds are read as they were written, in all four cases. -/
theorem kindsNamed_kindNames (kinds : DeclarationKinds) :
    kindsNamed (", ".intercalate (kindNames kinds)) = kinds := by
  rw [kindsNamed, listItems_intercalate fun item => isItem_of_mem_kindNames]
  obtain ⟨locals, parameters⟩ := kinds
  cases locals <;> cases parameters <;> rfl

/-- A written truth value is not refused. -/
theorem flagRefusal?_toString (property : String) (b : Bool) :
    flagRefusal? property (toString b) = none := by
  cases b <;> exact if_pos (by decide +kernel)

/-- A truth value is read as it was written. -/
theorem flagOf_toString (b : Bool) : flagOf (toString b) = b := by
  cases b <;> decide +kernel

/-- A severity is read as it was written. -/
theorem ofName?_name (severity : Severity) : Severity.ofName? severity.name = some severity := by
  cases severity <;> decide +kernel

/-- What is written of a writable configuration is refused by no handler. For the pattern this is
the condition that its text compiles to it. -/
theorem refusal?_of_property? [PatternEngine] (hc : c.IsWritable)
    (h : c.property? key = some value) :
    refusal? key value = none := by
  unfold property? at h
  split at h
  case h_1 =>
    obtain ⟨p, hp, rfl⟩ := Option.map_eq_some_iff.mp h
    simp [refusal?, hc.compiled p hp]
  -- the kinds, the severity, the rules and the limit; what is left are truth values
  case h_6 =>
    obtain rfl := Option.some.inj h
    exact kindsRefusal?_kindNames hc.kinds
  case h_7 =>
    obtain rfl := Option.some.inj h
    simp [refusal?, ofName?_name]
  case h_8 => rfl
  case h_10 =>
    obtain ⟨limit, hlimit, rfl⟩ := Option.map_eq_some_iff.mp h
    have hread := parseCount?_toString (hc.limit limit hlimit)
    rw [refusal?, hread]
    rfl
  case h_11 => cases h
  all_goals
    obtain rfl := Option.some.inj h
    exact flagRefusal?_toString _ _

/-- What is written of each property is read as the property. -/
theorem ofValues_property? [PatternEngine] (hc : c.IsWritable) : ofValues c.property? = c := by
  have hpattern : (c.hiddenField.ignoreFormat?.map Pattern.text).bind PatternEngine.compile? =
      c.hiddenField.ignoreFormat? := by
    cases h : c.hiddenField.ignoreFormat? with
    | none => rfl
    | some p => exact hc.compiled p h
  have hlimit : (c.errorLimit?.map toString).bind parseCount? = c.errorLimit? := by
    cases h : c.errorLimit? with
    | none => rfl
    | some limit => exact parseCount?_toString (hc.limit limit h)
  -- what each property is read to, with all look-ups done
  have hvalues : ofValues c.property? =
      { disabledRules := listItems (", ".intercalate c.disabledRules)
        warningAsError := flagOf (toString c.warningAsError)
        errorLimit? := (c.errorLimit?.map toString).bind parseCount?
        hiddenField :=
          { ignoreFormat? :=
              (c.hiddenField.ignoreFormat?.map Pattern.text).bind PatternEngine.compile?
            ignoreSetter := flagOf (toString c.hiddenField.ignoreSetter)
            setterCanReturnItsClass := flagOf (toString c.hiddenField.setterCanReturnItsClass)
            ignoreConstructorParameter := flagOf (toString c.hiddenField.ignoreConstructorParameter)
            ignoreAbstractMethods := flagOf (toString c.hiddenField.ignoreAbstractMethods)
            kinds := kindsNamed (", ".intercalate (kindNames c.hiddenField.kinds))
            severity := (Severity.ofName? c.hiddenField.severity.name).getD .error } } :=
    rfl
  simp only [hvalues, hpattern, hlimit, flagOf_toString, kindsNamed_kindNames, ofName?_name,
    Option.getD_some, listItems_intercalate hc.rules]

/-- The rows of a configuration may be written in any order, since each key stands in one row only.
-/
theorem load_of_perm [PatternEngine] {rows : List (String × String)} (hc : c.IsWritable)
    (hrows : rows.Perm c.properties) : (standard.load (written rows)).1 = .ok c := by
  have hmem : ∀ key value, (key, value) ∈ rows ↔ c.property? key = some value :=
    fun key value => hrows.mem_iff.trans mem_properties
  have hload := load_written hmem
    (fun row hrow =>
      have hrow := (hmem row.1 row.2).mp hrow
      ⟨isKey_of_property? hrow, isValue_of_property? hc hrow⟩)
    (fun row hrow => refusal?_of_property? hc ((hmem row.1 row.2).mp hrow))
  rw [hload, ofValues_property? hc]

/-! ## What can be loaded -/

/-- What a line says of its key is a value. -/
theorem isValue_of_setting? {text line : String} (hline : line ∈ effectiveLines text)
    (h : setting? line = some (key, value)) : IsValue value := by
  obtain ⟨hline, -⟩ := List.mem_filter.mp hline
  obtain ⟨raw, hraw, rfl⟩ := List.mem_map.mp hline
  obtain ⟨⟨before, after⟩, hsplit, hsetting⟩ := Option.map_eq_some_iff.mp h
  cases hsetting
  refine isValue_trim fun hfeed => lineFeed_not_mem_of_mem_lines hraw (mem_of_mem_trim ?_)
  rw [(splitOnce?_eq_some hsplit).1]
  exact List.mem_append_right _ (List.mem_cons_of_mem _ hfeed)

/-- What was loaded can be written: a pattern keeps the text that it was compiled from, and every
value comes from a trimmed line. -/
theorem isWritable_of_load [PatternEngine] [LawfulPatternEngine] {text : String}
    (h : (standard.load text).1 = .ok c) :
    c.IsWritable := by
  obtain ⟨hfaults, hvalues⟩ := load_eq_ok.mp h
  have hvalue : ∀ key value, lastValue? (effectiveLines text) key = some value →
      IsValue value := by
    intro key value hlast
    obtain ⟨line, hline, hsetting⟩ := exists_setting_of_lastValue? hlast
    exact isValue_of_setting? hline hsetting
  -- a compiled pattern has the text that stood in the line; this is all that is asked of the engine
  have hpattern : ∀ p ∈ c.hiddenField.ignoreFormat?,
      lastValue? (effectiveLines text) "ignoreFormat" = some p.text ∧
        PatternEngine.compile? p.text = some p := by
    intro p hp
    rw [hvalues] at hp
    obtain ⟨pattern, hlast, hcompiled⟩ := Option.bind_eq_some_iff.mp hp
    rw [LawfulPatternEngine.text_of_compile? hcompiled]
    exact ⟨hlast, hcompiled⟩
  refine ⟨fun p hp => (hpattern p hp).2, fun p hp => hvalue _ _ (hpattern p hp).1,
    fun rule hrule => ?_, fun limit hlimit => ?_, kinds_of_load h⟩
  · rw [hvalues] at hrule
    change rule ∈ (lastValue? (effectiveLines text) "disabledRules").elim [] listItems at hrule
    cases hlast : lastValue? (effectiveLines text) "disabledRules" with
    | none => simp [hlast] at hrule
    | some list =>
      rw [hlast] at hrule
      exact isItem_of_mem_listItems (hvalue _ _ hlast).lineFeed hrule
  · rw [hvalues] at hlimit
    obtain ⟨digits, -, hparse⟩ := Option.bind_eq_some_iff.mp hlimit
    exact lt_of_parseCount? hparse

/-- The configurations that come out of texts are those that can be written. -/
theorem exists_load_iff [PatternEngine] [LawfulPatternEngine] :
    (∃ text, (load (some text)).1 = .ok c) ↔ c.IsWritable :=
  ⟨fun ⟨_, h⟩ => isWritable_of_load h, fun hc => ⟨c.render, load_of_perm hc (.refl _)⟩⟩

/-- A configuration that was loaded comes out again of the text that it is written as, in whatever
order its properties are written. -/
theorem load_render [PatternEngine] [LawfulPatternEngine] {text : String} {c : Config}
    (h : (load (some text)).1 = .ok c) :
    (load (some c.render)).1 = .ok c ∧
      ∀ rows : List (String × String), rows.Perm c.properties →
        (load (some (written rows))).1 = .ok c :=
  ⟨load_of_perm (isWritable_of_load h) (.refl _), fun _ => load_of_perm (isWritable_of_load h)⟩

/-- A text with a pattern that has in it what ends keys, items and lines, with no rule switched off,
and with the greatest limit. -/
def patternText : String :=
  "ignoreFormat = a=#b,\rc\r\ndisabledRules = ,\nerrorLimit = +18446744073709551615"

open scoped Pattern.Plain in
/-- A configuration with such a pattern is loaded, written and loaded again as the same one. -/
theorem load_render_patternText :
    ∃ c, (load (some patternText)).1 = .ok c ∧
      c.hiddenField.ignoreFormat?.map Pattern.text = some "a=#b,\rc" ∧ c.disabledRules = [] ∧
      c.errorLimit? = some 18446744073709551615 ∧ (load (some c.render)).1 = .ok c := by
  have hpattern : PatternEngine.compile? "a=#b,\rc" =
      some ⟨"a=#b,\rc", fun name => decide ("a=#b,\rc".toList <:+: name.toList)⟩ :=
    if_neg (by decide)
  have hlines : effectiveLines patternText =
      ["ignoreFormat = a=#b,\rc", "disabledRules = ,", "errorLimit = +18446744073709551615"] := by
    decide +kernel
  -- only the first `=` parts a line, and a `#` behind it begins no comment
  have hsettings : setting? "ignoreFormat = a=#b,\rc" = some ("ignoreFormat", "a=#b,\rc") ∧
      setting? "disabledRules = ," = some ("disabledRules", ",") ∧
      setting? "errorLimit = +18446744073709551615" =
        some ("errorLimit", "+18446744073709551615") := by
    decide +kernel
  have hcount : parseCount? "+18446744073709551615" = some 18446744073709551615 := by
    decide +kernel
  have hload : (load (some patternText)).1 =
      .ok (ofValues (lastValue? (effectiveLines patternText))) := by
    refine load_eq_ok.mpr ⟨?_, rfl⟩
    simp [hlines, fault?, hsettings, refusal?, hpattern, hcount]
  refine ⟨_, hload, ?_, ?_, ?_, (load_render hload).1⟩
  all_goals simp [hlines, ofValues, lastValue?, valueFor?, hsettings, hpattern, hcount]
  rfl

end Config

end FieldShadow
