import FieldShadow.Proofs.Config.Value
import FieldShadow.Proofs.Result
import FieldShadow.Proofs.Text.Piece

/-!
# The last line of each key

A configuration text is read line by line into a configuration that changes with each line. What
comes out is the same as if every property were read on its own from the last line with its key, and
the first line that is refused decides the error (`ConfigLoader.load_eq`). This is so because each
handler changes one property, and whether it refuses a value does not depend on the lines before.

The engine that compiles patterns is a parameter. Of a pattern only one thing is used here, whether
the engine takes its text, which is one more way in which a line can be refused.
-/

namespace FieldShadow

open Text

/-! ## One line -/

namespace ConfigLine

/-- Whether a line without the white space around it says something: it is neither blank nor a
comment. -/
def isEffective (line : String) : Bool :=
  line ≠ "" ∧ line.toList.head? ≠ some '#' ∧ line.toList.head? ≠ some '!'

/-- The key and the value of a line with an equals sign. -/
def setting? (line : String) : Option (String × String) :=
  (splitOnce? '=' line).map fun (key, value) => (trim key, trim value)

/-- Why a line that says something is refused. -/
def fault? [PatternEngine] (line : String) : Option LintError :=
  match setting? line with
  | none => some (.malformedLine line)
  | some (key, value) => Config.refusal? key value

/-- A line is judged by what is left of it when it is trimmed. -/
theorem ofText_eq (text : String) :
    ofText text =
      if isEffective (trim text) then
        match setting? (trim text) with
        | none => .malformed (trim text)
        | some (key, value) => .setting key value
      else .nothing := by
  by_cases h : isEffective (trim text)
  · have hsays : ¬ (trim text = "" ∨ (trim text).toList.head? = some '#' ∨
        (trim text).toList.head? = some '!') := by
      simpa [isEffective] using h
    rw [if_pos h, ofText, if_neg hsays, setting?]
    cases splitOnce? '=' (trim text) <;> rfl
  · have hsilent : trim text = "" ∨ (trim text).toList.head? = some '#' ∨
        (trim text).toList.head? = some '!' := by
      simpa [isEffective, Classical.or_iff_not_imp_left] using h
    rw [if_neg h, ofText, if_pos hsilent]

/-! ## All lines -/

/-- The lines of a text that say something, without the white space around them. -/
def effectiveLines (text : String) : List String :=
  ((lines text).map trim).filter isEffective

/-- The value of a line, if it has the key. -/
def valueFor? (key line : String) : Option String :=
  (setting? line).bind fun s => if s.1 = key then some s.2 else none

/-- The value of the last line with a key. -/
def lastValue? (lines : List String) (key : String) : Option String :=
  (lines.filterMap (valueFor? key)).getLast?

/-- The last line with a key is the one that counts. -/
theorem lastValue?_concat (lines : List String) {line key value : String}
    (h : setting? line = some (key, value)) :
    lastValue? (lines ++ [line]) = Config.setValue (lastValue? lines) key value := by
  funext k
  by_cases hk : key = k
  · simp [lastValue?, valueFor?, Config.setValue, h, hk]
  · simp [lastValue?, valueFor?, Config.setValue, h, hk, Ne.symm hk]

end ConfigLine

namespace ConfigLoader

open Config ConfigLine

section Engine

variable [PatternEngine]

/-- A line is refused whatever the lines before it say, or its value becomes the last of its
key. -/
theorem applyLine_ofValues (before : List String) {text : String}
    (h : isEffective (trim text)) :
    standard.applyLine (.ofValues (lastValue? before)) (.ofText text) =
      match fault? (trim text) with
      | some e => .error e
      | none => .ok (.ofValues (lastValue? (before ++ [trim text]))) := by
  rw [ofText_eq, if_pos h, fault?]
  cases hsetting : setting? (trim text) with
  | none => rfl
  | some setting =>
    obtain ⟨key, value⟩ := setting
    dsimp only [applyLine]
    cases hhandler : standard.handler? key with
    | none => rw [refusal?_of_handler? hhandler]
    | some handler =>
      rw [lastValue?_concat before hsetting]
      exact reads_of_handler? hhandler _ value

/-- Lines are applied as long as none is faulty, and what they come to are the last values so far.
This is where the order of the lines goes. -/
theorem applyLines_ofValues (before texts : List String) :
    (standard.applyLines (.ofValues (lastValue? before)) (texts.map .ofText)).1 =
      match ((texts.map trim).filter isEffective).findSome? fault? with
      | some e => .error e
      | none => .ok (.ofValues (lastValue? (before ++ (texts.map trim).filter isEffective))) := by
  induction texts generalizing before with
  | nil => simp [applyLines]
  | cons text texts ih =>
    rw [List.map_cons, List.map_cons, applyLines]
    by_cases h : isEffective (trim text)
    · rw [applyLine_ofValues before h, List.filter_cons_of_pos h, List.findSome?_cons]
      cases fault? (trim text) with
      | some e => rfl
      | none =>
        dsimp only
        rw [ih, List.append_assoc, List.singleton_append]
    · rw [ofText_eq, if_neg h, List.filter_cons_of_neg h]
      exact ih before

/-- What comes out of a configuration text: the error of the first line that is refused, or each
property as the last line with its key has it. -/
theorem load_eq (text : String) :
    (standard.load text).1 =
      match (effectiveLines text).findSome? fault? with
      | some e => .error e
      | none => .ok (.ofValues (lastValue? (effectiveLines text))) :=
  applyLines_ofValues [] (lines text)

/-- Whether a line cannot be applied: it has no equals sign, no property has its key, or the handler
of the property refuses its value. -/
def Faulty (line : String) : Prop :=
  '=' ∉ line.toList ∨ ∃ s, setting? line = some s ∧
    ∀ handler, standard.handler? s.1 = some handler → ∃ e, handler s.2 {} = .error e

/-- A line is faulty exactly if it has no equals sign, no known key or a refused value. -/
theorem isSome_fault? {line : String} : (fault? line).isSome ↔ Faulty line := by
  rw [fault?, Faulty, ← splitOnce?_eq_none, ← Option.map_eq_none_iff, ← setting?]
  cases setting? line with
  | none => simp
  | some setting =>
    obtain ⟨key, value⟩ := setting
    cases hhandler : standard.handler? key with
    | none => simp [refusal?_of_handler? hhandler, hhandler]
    | some handler =>
      have hreads := reads_of_handler? hhandler (fun _ => none) value
      rw [ofValues_none] at hreads
      cases hrefusal : refusal? key value <;> simp [hreads, hrefusal, hhandler]

/-- A text is refused for its first line that is. -/
theorem load_eq_error {text : String} {e : LintError} :
    (standard.load text).1 = .error e ↔
      ∃ before line after, effectiveLines text = before ++ line :: after ∧
        fault? line = some e ∧ ∀ l ∈ before, fault? l = none := by
  rw [load_eq, ← List.findSome?_eq_some_iff]
  cases (effectiveLines text).findSome? fault? with
  | none => simp
  | some first => simp

/-- A text is loaded exactly if no effective line is faulty, with the last value of every key. -/
theorem load_eq_ok {text : String} {c : Config} :
    (standard.load text).1 = .ok c ↔
      (∀ line ∈ effectiveLines text, fault? line = none) ∧
        c = .ofValues (lastValue? (effectiveLines text)) := by
  rw [load_eq, ← List.findSome?_eq_none_iff]
  cases (effectiveLines text).findSome? fault? with
  | none => simp [eq_comm]
  | some e => simp

end Engine

/-! ## What comes out -/

/-- A last value stands in some line. -/
theorem exists_setting_of_lastValue? {lines : List String} {key value : String}
    (h : lastValue? lines key = some value) :
    ∃ line ∈ lines, setting? line = some (key, value) := by
  obtain ⟨line, hline, hvalue⟩ := List.mem_filterMap.mp (List.mem_of_getLast? h)
  obtain ⟨⟨k, v⟩, hsetting, hvalue⟩ := Option.bind_eq_some_iff.mp hvalue
  obtain ⟨hk, hvalue⟩ := Option.ite_none_right_eq_some.mp hvalue
  exact ⟨line, hline, by rw [hsetting, ← hk, ← Option.some.inj hvalue]⟩

/-- Kinds that are not refused name at least one. -/
theorem kindsNamed_of_not_refused {value : String} (h : kindsRefusal? value = none) :
    (kindsNamed value).locals ∨ (kindsNamed value).parameters := by
  unfold kindsRefusal? at h
  split at h
  · cases h
  · next hfind =>
    have hitems : listItems value ≠ [] := by
      intro hnil
      simp [hnil] at h
    have hnamed := mt (Handler.named_of_find?_eq_none hfind).mp hitems
    simpa [kindsNamed, Classical.or_iff_not_imp_left] using hnamed

/-- A configuration that is read from a text checks declarations of one kind at least. -/
theorem kinds_of_load [PatternEngine] {text : String} {c : Config}
    (h : (standard.load text).1 = .ok c) :
    c.hiddenField.kinds.locals ∨ c.hiddenField.kinds.parameters := by
  obtain ⟨hfaults, rfl⟩ := load_eq_ok.mp h
  cases hvalue : lastValue? (effectiveLines text) "tokens" with
  | none => simp [ofValues, hvalue]
  | some value =>
    obtain ⟨line, hline, hsetting⟩ := exists_setting_of_lastValue? hvalue
    have hrefusal := hfaults line hline
    simp only [fault?, hsetting] at hrefusal
    have hnamed := kindsNamed_of_not_refused hrefusal
    simpa [ofValues, hvalue] using hnamed

/-! ## Other texts with the same settings -/

/-- The lines with a key, in their order. -/
def linesFor (key : String) (lines : List String) : List String :=
  lines.filter fun line => (setting? line).any fun s => s.1 = key

/-- The lines of a key decide about its value. -/
theorem lastValue?_linesFor (lines : List String) (key : String) :
    lastValue? (linesFor key lines) key = lastValue? lines key := by
  have hvalues : (linesFor key lines).filterMap (valueFor? key) =
      lines.filterMap (valueFor? key) := by
    rw [linesFor, List.filterMap_filter]
    refine congrArg (List.filterMap · lines) (funext fun line => ?_)
    cases h : setting? line with
    | none => simp [valueFor?, h]
    | some setting => by_cases hk : setting.1 = key <;> simp [valueFor?, h, hk]
  rw [lastValue?, hvalues, lastValue?]

/-- Lines in another order, those with the same key in the same, give the same configuration. -/
theorem load_eq_ok_of_perm [PatternEngine] {text text' : String} {c : Config}
    (h : (standard.load text).1 = .ok c)
    (hperm : (effectiveLines text').Perm (effectiveLines text))
    (hkeys : ∀ key, linesFor key (effectiveLines text') = linesFor key (effectiveLines text)) :
    (standard.load text').1 = .ok c := by
  obtain ⟨hfaults, rfl⟩ := load_eq_ok.mp h
  refine load_eq_ok.mpr ⟨fun line hline => hfaults line (hperm.subset hline), ?_⟩
  have hvalues : lastValue? (effectiveLines text) = lastValue? (effectiveLines text') := by
    funext key
    rw [← lastValue?_linesFor, ← hkeys, lastValue?_linesFor]
  rw [hvalues]

/-- What a line says, if it says something. -/
def says? (text : String) : Option ConfigLine :=
  if isEffective (trim text) then some (.ofText text) else none

/-- Lines say the same when they are trimmed to the same. -/
theorem says?_congr {text text' : String} (h : trim text = trim text') :
    says? text = says? text' := by
  rw [says?, says?, ofText_eq, ofText_eq, h]

/-- A line with an equals sign, of which neither end of the key and of the value is of account. -/
theorem says?_separated {key : List Char} (hkey : '=' ∉ key) (value : List Char) :
    says? (String.ofList (key ++ '=' :: value)) =
      if (dropFront key).head? = some '#' ∨ (dropFront key).head? = some '!' then none
      else some (.setting (String.ofList (trimSpace key)) (String.ofList (trimSpace value))) := by
  have htrim : trim (String.ofList (key ++ '=' :: value)) =
      String.ofList (dropFront key ++ '=' :: dropBack value) := by
    rw [trim, String.toList_ofList, trimSpace_append_cons (by decide)]
  -- leaving out characters in front brings no `=` into the key
  have hfront : '=' ∉ dropFront key := fun h =>
    hkey ((List.dropWhile_sublist Unicode.isWhiteSpace).subset h)
  have hsetting : setting? (String.ofList (dropFront key ++ '=' :: dropBack value)) =
      some (String.ofList (trimSpace key), String.ofList (trimSpace value)) := by
    rw [setting?, splitOnce?_append_cons hfront, Option.map_some]
    simp [trim, trimSpace_dropFront, trimSpace_dropBack]
  have heffective : isEffective (String.ofList (dropFront key ++ '=' :: dropBack value)) = true ↔
      ¬ ((dropFront key).head? = some '#' ∨ (dropFront key).head? = some '!') := by
    cases dropFront key <;> simp [isEffective]
  rw [says?, ofText_eq, htrim, hsetting]
  by_cases h : (dropFront key).head? = some '#' ∨ (dropFront key).head? = some '!'
  · rw [if_pos h, if_neg (mt heffective.mp (not_not_intro h))]
  · rw [if_neg h, if_pos (heffective.mpr h), if_pos (heffective.mpr h)]

/-- White space around the key and the value of a line is of no account. -/
theorem says?_spaced {key value u₁ u₂ u₃ u₄ : List Char} (hkey : '=' ∉ key) (h₁ : White u₁)
    (h₂ : White u₂) (h₃ : White u₃) (h₄ : White u₄) :
    says? (String.ofList (u₁ ++ key ++ u₂ ++ '=' :: (u₃ ++ value ++ u₄))) =
      says? (String.ofList (key ++ '=' :: value)) := by
  have hwhite {u : List Char} (hu : White u) : '=' ∉ u := fun h => absurd (hu _ h) (by decide)
  have hkey' : '=' ∉ u₁ ++ key ++ u₂ := by simp [hwhite h₁, hkey, hwhite h₂]
  have hhead : (dropFront (u₁ ++ key ++ u₂)).head? = (dropFront key).head? := by
    rw [List.append_assoc, dropFront_append h₁, dropFront_append_white h₂]
    cases dropFront key <;> simp
  rw [says?_separated hkey', says?_separated hkey, hhead, trimSpace_around h₁ h₂,
    trimSpace_around h₃ h₄]

/-- Whether the second of two rows of lines is the first with blank lines and comments between, and
with white space around keys and values. -/
inductive Respaced : List String → List String → Prop
  | nil : Respaced [] []
  | same {texts texts' : List String} (text : String) (rest : Respaced texts texts') :
      Respaced (text :: texts) (text :: texts')
  | inserted {texts texts' : List String} {text : String} (silent : ¬ isEffective (trim text))
      (rest : Respaced texts texts') : Respaced texts (text :: texts')
  | spaced {texts texts' : List String} {key value u₁ u₂ u₃ u₄ : List Char} (hkey : '=' ∉ key)
      (h₁ : White u₁) (h₂ : White u₂) (h₃ : White u₃) (h₄ : White u₄)
      (rest : Respaced texts texts') :
      Respaced (String.ofList (key ++ '=' :: value) :: texts)
        (String.ofList (u₁ ++ key ++ u₂ ++ '=' :: (u₃ ++ value ++ u₄)) :: texts')

/-- White space around lines and empty lines change nothing of what is said. -/
theorem Respaced.filterMap_says? {texts texts' : List String} (h : Respaced texts texts') :
    texts'.filterMap says? = texts.filterMap says? := by
  induction h with
  | nil => rfl
  | same text _ ih => rw [List.filterMap_cons, List.filterMap_cons, ih]
  | inserted silent _ ih => rw [List.filterMap_cons, says?, if_neg silent, ih]
  | spaced hkey h₁ h₂ h₃ h₄ _ ih =>
    rw [List.filterMap_cons, List.filterMap_cons, ih, says?_spaced hkey h₁ h₂ h₃ h₄]

/-- Lines that say nothing are of no account, not even to what is logged. -/
theorem applyLines_filterMap_says? (l : ConfigLoader) (c : Config) (texts : List String) :
    l.applyLines c (texts.map .ofText) = l.applyLines c (texts.filterMap says?) := by
  induction texts generalizing c with
  | nil => rfl
  | cons text texts ih =>
    rw [List.map_cons, List.filterMap_cons, says?]
    by_cases h : isEffective (trim text)
    · simp only [if_pos h, applyLines, ih]
    · rw [if_neg h, ofText_eq, if_neg h]
      simp [applyLines, applyLine, lineLog, ih]

/-- Raw lines may be loaded in place of lines, since a carriage return at their end is white space.
-/
theorem load_eq_rawLines (l : ConfigLoader) (text : String) :
    l.load text = l.applyLines {} ((rawLines text).filterMap says?) := by
  have hreturn (line : String) : says? (line ++ "\r") = says? line := by
    refine says?_congr ?_
    have hwhite : White ['\r'] := white_of_all (by decide)
    have haround := trimSpace_around white_nil hwhite line.toList
    simpa [trim] using congrArg String.ofList haround
  rw [load, applyLines_filterMap_says?, ← filterMap_rawLines rfl hreturn]

/-- Blank lines, comments and white space around keys and values are of no account. -/
theorem load_respaced (l : ConfigLoader) {text text' : String}
    (h : Respaced (rawLines text) (rawLines text')) : l.load text' = l.load text := by
  rw [load_eq_rawLines, load_eq_rawLines, h.filterMap_says?]

end ConfigLoader

namespace Config

open ConfigLine ConfigLoader

/-- A configuration text says what the last line of each key says. It is refused if a line is, and
the first such line decides the error. Otherwise each property has the value of its last line or its
default, of the two kinds of declarations one is checked, and the same comes out of a text with the
lines in another order, those with the same key in the same. Blank lines, comments and white space
around keys and values change nothing. -/
theorem load_last_lines [PatternEngine] (text : String) :
    ((∃ e, (load (some text)).1 = .error e) ↔ ∃ line ∈ effectiveLines text, Faulty line) ∧
      (∀ e, (load (some text)).1 = .error e ↔
        ∃ before line after, effectiveLines text = before ++ line :: after ∧
          fault? line = some e ∧ ∀ l ∈ before, fault? l = none) ∧
      (∀ c, (load (some text)).1 = .ok c →
        c = ofValues (lastValue? (effectiveLines text)) ∧
          (c.hiddenField.kinds.locals ∨ c.hiddenField.kinds.parameters) ∧
          ∀ text', (effectiveLines text').Perm (effectiveLines text) →
            (∀ key, linesFor key (effectiveLines text') = linesFor key (effectiveLines text)) →
            (load (some text')).1 = .ok c) ∧
      ∀ text', Respaced (rawLines text) (rawLines text') →
        load (some text') = load (some text) := by
  refine ⟨?_, fun e => load_eq_error, fun c h => ⟨(load_eq_ok.mp h).2, kinds_of_load h,
    fun text' => load_eq_ok_of_perm h⟩, fun text' => load_respaced standard⟩
  -- all but the first part are lemmas above; a first fault is an error
  have hfault : (∃ e, (load (some text)).1 = .error e) ↔
      ((effectiveLines text).findSome? fault?).isSome := by
    rw [load, load_eq]
    cases (effectiveLines text).findSome? fault? <;> simp
  rw [hfault, List.isSome_findSome?]
  simp [isSome_fault?]

/-- A text with two lines of one key. -/
def setterText : String :=
  "ignoreSetter = true\nseverity = info\nignoreSetter = false"

/-- The lines of `setterText` in another order. -/
def movedText : String :=
  "severity = info\nignoreSetter = true\nignoreSetter = false\n"

/-- `setterText` with a comment and white space. -/
def spacedText : String :=
  "ignoreSetter = true\n# quiet\n\tseverity = info\nignoreSetter = \r false"

open scoped Pattern.Plain in
/-- Of the two lines with one key the later one counts, in the other order of the keys too, and
comments and white space change nothing. -/
theorem load_last_lines_setterText :
    (load (some setterText)).1 = .ok { hiddenField := { severity := .info } } ∧
      (load (some movedText)).1 = (load (some setterText)).1 ∧
      load (some spacedText) = load (some setterText) := by
  have hlines : effectiveLines setterText =
      ["ignoreSetter = true", "severity = info", "ignoreSetter = false"] := by
    decide +kernel
  have hmoved : effectiveLines movedText =
      ["severity = info", "ignoreSetter = true", "ignoreSetter = false"] := by
    decide +kernel
  have hkey : setting? "ignoreSetter = true" = some ("ignoreSetter", "true") ∧
      setting? "severity = info" = some ("severity", "info") ∧
      setting? "ignoreSetter = false" = some ("ignoreSetter", "false") := by
    decide +kernel
  have hvalues : flagRefusal? "ignoreSetter" "true" = none ∧
      flagRefusal? "ignoreSetter" "false" = none ∧ flagOf "false" = false ∧
      Severity.ofName? "info" = some .info := by
    decide +kernel
  -- the values are looked up line by line, since comparing whole loaders takes too long
  have hload : (load (some setterText)).1 = .ok { hiddenField := { severity := .info } } := by
    refine load_eq_ok.mpr ⟨by simp [hlines, fault?, hkey, refusal?, hvalues], ?_⟩
    simp [hlines, ofValues, lastValue?, valueFor?, hkey, hvalues]
  have hraw : rawLines setterText =
      ["ignoreSetter = true", String.ofList ("severity ".toList ++ '=' :: " info".toList),
        String.ofList ("ignoreSetter ".toList ++ '=' :: " false".toList)] := by
    decide +kernel
  have hspaced : rawLines spacedText =
      ["ignoreSetter = true", "# quiet",
        String.ofList (['\t'] ++ "severity ".toList ++ [] ++ '=' :: ([] ++ " info".toList ++ [])),
        String.ofList ([] ++ "ignoreSetter ".toList ++ [] ++
          '=' :: ([' ', '\r'] ++ " false".toList ++ []))] := by
    decide +kernel
  have hwhite : White ['\t'] ∧ White [' ', '\r'] :=
    ⟨white_of_all (by decide), white_of_all (by decide)⟩
  obtain ⟨-, -, hok, hrespaced⟩ := load_last_lines setterText
  refine ⟨hload, ?_, hrespaced spacedText ?_⟩
  · rw [hload]
    refine (hok _ hload).2.2 movedText ?_ fun key => ?_
    · rw [hlines, hmoved]
      exact .swap _ _ _
    · rw [hlines, hmoved]
      obtain ⟨htrue, hinfo, hfalse⟩ := hkey
      by_cases h : "severity" = key
      · subst h
        simp [linesFor, htrue, hinfo, hfalse]
      · simp [linesFor, List.filter_cons, htrue, hinfo, hfalse, h]
  · rw [hraw, hspaced]
    exact .same _ (.inserted (by decide +kernel)
      (.spaced (by decide) hwhite.1 white_nil white_nil white_nil
        (.spaced (by decide) white_nil white_nil hwhite.2 white_nil .nil)))

end Config

end FieldShadow
