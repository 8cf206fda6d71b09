import FieldShadow.Proofs.Wording

/-!
# Calls from other programs

A call that gives no report records one error, and this is the error that can be asked for right
afterwards; every other call leaves the errors as they are (`ErrorList.lawful_exchanges`). What is
handed over holds no zero character, so a report is never held back. Of all that is wrong with a
call the first fault in a fixed order decides (`Interface.answer_eq_error`).

## Shape of the argument

What may be wrong with a call is a list in a fixed order (`faults`), written without running the
check. That the check stops at the first of them is proved once for texts that could be read
(`Reads.firstFault?_eq`) and once for bytes that are none (`answer_of_unread`).

The errors on record only grow. A list of them is `Readable` if each can be handed over, and calls
keep it so; that is what makes the last error the one that is answered.
-/

namespace FieldShadow

open Text

namespace Interface

/-- A text can be handed out exactly if no zero character is in it. -/
theorem isSendable_iff {text : String} : isSendable text ↔ ZeroFree text := by
  simp [isSendable, ZeroFree]

/-- What is read of bytes has no zero, since it ends at the first one. -/
theorem zeroFree_readText {bytes : List UInt8} {text : String} (h : readText bytes = .ok text) :
    ZeroFree text := by
  have hbytes : 0 ∉ bytes.takeWhile (· != 0) := fun hmem => by
    simpa using List.all_eq_true.mp List.all_takeWhile 0 hmem
  exact zeroFree_decodeUtf8 hbytes (mapError_eq_ok.mp h)

/-- The message about malformed bytes has numbers and fixed words only. -/
theorem zeroFree_malformedText (e : Utf8Error) :
    ZeroFree (InterfaceError.malformedText e).message := by
  refine zeroFree_append.mpr ⟨zeroFree_ofList (by decide), ?_⟩
  cases e with
  | malformed index length =>
    refine zeroFree_append.mpr ⟨?_, zeroFree_toString _⟩
    refine zeroFree_append.mpr ⟨?_, zeroFree_ofList (by decide)⟩
    exact zeroFree_append.mpr ⟨zeroFree_ofList (by decide), zeroFree_toString _⟩
  | truncated index =>
    exact zeroFree_append.mpr ⟨zeroFree_ofList (by decide), zeroFree_toString _⟩

/-- The error of a computation that failed. -/
def error? {ε α : Type} : Except ε α → Option ε
  | .error e => some e
  | .ok _ => none

@[simp] theorem error?_error {ε α : Type} (e : ε) : error? (.error e : Except ε α) = some e :=
  rfl

@[simp] theorem error?_ok {ε α : Type} (a : α) : error? (.ok a : Except ε α) = none :=
  rfl

/-- The texts of a call, if both are texts. -/
structure Reads (source? config? : Option (List UInt8)) (source : String)
    (settings? : Option String) : Prop where
  source_eq : source?.map readText = some (.ok source)
  settings_eq : config?.mapM readText = .ok settings?

/-- A source that was read has no zero in it. -/
theorem Reads.zeroFree_source {source? config? : Option (List UInt8)} {source : String}
    {settings? : Option String} (h : Reads source? config? source settings?) :
    ZeroFree source := by
  obtain ⟨bytes, -, hbytes⟩ := Option.map_eq_some_iff.mp h.source_eq
  exact zeroFree_readText hbytes

/-- Bytes that are not read are malformed; no other error comes up there. -/
theorem exists_of_readText {bytes : List UInt8} {e : InterfaceError}
    (h : readText bytes = .error e) : ∃ e', e = .malformedText e' := by
  obtain ⟨e', -, he⟩ := mapError_eq_error.mp h
  exact ⟨e', he.symm⟩

/-- Settings that were read have no zero in them. -/
theorem Reads.zeroFree_settings {source? config? : Option (List UInt8)} {source text : String}
    (h : Reads source? config? source (some text)) : ZeroFree text := by
  have hconfig := h.settings_eq
  cases config? with
  | none => cases hconfig
  | some settings =>
    cases hsettings : readText settings with
    | error e => simp [hsettings] at hconfig
    | ok text' =>
      obtain rfl : text' = text := by simpa [hsettings] using hconfig
      exact zeroFree_readText hsettings

/-- The faults of a source in their order. -/
theorem error?_check (config : Config) (source : String) :
    error? ((Analyzer.new config).check source).result =
      ((error? (tokenize source)).map .lexical).or
        ((tokenize source).toOption.bind fun ls =>
          (error? (Parser.ofLexemes ls).next.1).map .unparsable) := by
  rw [Analyzer.check]
  cases hls : tokenize source with
  | error e => rfl
  | ok ls =>
    cases hnext : (Parser.ofLexemes ls).next.1 with
    | error e => simp [Except.toOption, hnext]
    | ok t =>
      have hlinked := (Parser.conforms_of_next hnext).1.linked
      simp [Except.toOption, hnext, Analyzer.analyze_eq hlinked config]

/-- A report is empty exactly if nothing was found, since every finding has a header. -/
theorem report_eq_empty {s : ReportStyle} {source : String} {found : List Diagnostic} :
    report s source found = "" ↔ found = [] := by
  constructor
  · intro h
    cases found with
    | nil => rfl
    | cons d found =>
      have h := congrArg String.toList h
      simp [report, Diagnostic.reportLines, String.toList_join] at h
  · rintro rfl
    rfl

/-! ## One call -/

section Engine

variable [PatternEngine]

/-- What may be wrong with a call, in the order in which it is looked for. A fault does not depend
on those in front of it, but bytes that are no text have no faults of a text, and a text that is not
cut into tokens has none of the grammar. -/
def faults (source? config? : Option (List UInt8)) : List (Option InterfaceError) :=
  let text? := source?.bind fun bytes => (readText bytes).toOption
  let settings? := config?.bind fun bytes => (readText bytes).toOption
  let lexemes? := text?.bind fun text => (tokenize text).toOption
  [if source?.isNone then some .noSource else none,
    source?.bind fun bytes => error? (readText bytes),
    config?.bind fun bytes => error? (readText bytes),
    settings?.bind fun text => (error? (Config.load (some text)).1).map .failed,
    text?.bind fun text => (error? (tokenize text)).map fun e => .failed (.lexical e),
    lexemes?.bind fun ls =>
      (error? (Parser.ofLexemes ls).next.1).map fun e => .failed (.unparsable e)]

/-- The first fault of a call. -/
def firstFault? (source? config? : Option (List UInt8)) : Option InterfaceError :=
  (faults source? config?).findSome? id

/-- A call without two texts fails before either is looked at. -/
theorem answer_of_unread {source? config? : Option (List UInt8)}
    (h : ¬ ∃ source settings?, Reads source? config? source settings?) :
    ∃ e, firstFault? source? config? = some e ∧ (answer source? config?).1 = .error e ∧
      (e = .noSource ∨ ∃ e', e = .malformedText e') := by
  cases source? with
  | none => exact ⟨.noSource, rfl, rfl, .inl rfl⟩
  | some bytes =>
    cases hsource : readText bytes with
    | error e =>
      refine ⟨e, ?_, ?_, .inr (exists_of_readText hsource)⟩
      · simp [firstFault?, faults, hsource, error?]
      · simp [answer, hsource]
    | ok source =>
      cases config? with
      | none => exact absurd ⟨source, none, by simp [hsource], rfl⟩ h
      | some settings =>
        cases hsettings : readText settings with
        | error e =>
          refine ⟨e, ?_, ?_, .inr (exists_of_readText hsettings)⟩
          · simp [firstFault?, faults, hsource, hsettings, error?]
          · simp [answer, hsource, hsettings]
        -- both texts are read, which was excluded
        | ok text => exact absurd ⟨source, some text, by simp [hsource], by simp [hsettings]⟩ h

/-- The answer to a call with two texts. -/
theorem Reads.answer_eq {source? config? : Option (List UInt8)} {source : String}
    {settings? : Option String} (h : Reads source? config? source settings?) :
    (answer source? config?).1 = (checkText source settings?).1.mapError .failed >>= send := by
  obtain ⟨bytes, rfl, hsource⟩ := Option.map_eq_some_iff.mp h.source_eq
  simp only [answer, hsource, h.settings_eq]

/-- A check fails with the first error of the settings, the tokens and the tree, in this order. -/
theorem error?_checkText (source : String) (settings? : Option String) :
    error? (checkText source settings?).1 =
      (error? (Config.load settings?).1).or
        (((error? (tokenize source)).map .lexical).or
          ((tokenize source).toOption.bind fun ls =>
            (error? (Parser.ofLexemes ls).next.1).map .unparsable)) := by
  rw [checkText]
  rcases hload : Config.load settings? with ⟨_ | config, log⟩
  · rfl
  · rw [← error?_check config]
    dsimp only
    cases ((Analyzer.new config).check source).result <;> rfl

/-- The faults of a call with two texts are those of the configuration and of the source. -/
theorem Reads.firstFault?_eq {source? config? : Option (List UInt8)} {source : String}
    {settings? : Option String} (h : Reads source? config? source settings?) :
    firstFault? source? config? = (error? (checkText source settings?).1).map .failed := by
  obtain ⟨bytes, rfl, hsource⟩ := Option.map_eq_some_iff.mp h.source_eq
  have htext : (Except.ok source : Except InterfaceError String).toOption = some source := rfl
  obtain ⟨hread, hsettings⟩ : (config?.bind fun bytes => error? (readText bytes)) = none ∧
      (config?.bind fun bytes => (readText bytes).toOption) = settings? := by
    have hconfig := h.settings_eq
    cases config? with
    | none => exact ⟨rfl, Except.ok.inj hconfig⟩
    | some settings =>
      cases hsettings : readText settings with
      | error e => simp [hsettings] at hconfig
      | ok text => simpa [hsettings, Except.toOption] using hconfig
  -- without a configuration text there is nothing that loading could refuse
  have hload : (settings?.bind fun text => (error? (Config.load (some text)).1).map .failed) =
      (error? (Config.load settings?).1).map InterfaceError.failed := by
    cases settings? <;> rfl
  rw [error?_checkText]
  simp only [firstFault?, faults, Option.bind_some, Option.isNone_some, hsource, htext, error?_ok,
    hread, hsettings, hload]
  -- the configuration is looked at first, then the tokens, then the unit
  cases error? (Config.load settings?).1 with
  | some e => rfl
  | none =>
    cases tokenize source with
    | error e => rfl
    | ok ls =>
      dsimp only [Except.toOption, Option.bind_some]
      cases error? (Parser.ofLexemes ls).next.1 <;> rfl

/-- A check that goes well has loaded its settings, and its text is the report of what was found
with them. -/
theorem exists_of_checkText_eq_ok {source text : String} {settings? : Option String}
    (h : (checkText source settings?).1 = .ok text) :
    ∃ config found, (Config.load settings?).1 = .ok config ∧
      ((Analyzer.new config).check source).result = .ok found ∧
      text = report reportStyle source found := by
  rw [checkText] at h
  rcases hload : Config.load settings? with ⟨_ | config, log⟩ <;> rw [hload] at h
  · cases h
  · obtain ⟨found, hfound, htext⟩ := map_eq_ok.mp h
    exact ⟨config, found, rfl, hfound, htext.symm⟩

/-- A check fails in the settings or in the source. -/
theorem load_or_check_of_checkText_eq_error {source : String} {settings? : Option String}
    {e : LintError} (h : (checkText source settings?).1 = .error e) :
    (Config.load settings?).1 = .error e ∨
      ∃ config, ((Analyzer.new config).check source).result = .error e := by
  rw [checkText] at h
  rcases hload : Config.load settings? with ⟨e' | config, log⟩ <;> rw [hload] at h
  · exact .inl (congrArg _ (Except.error.inj h))
  · cases hresult : ((Analyzer.new config).check source).result with
    | error e' =>
      simp only [hresult, Except.map, Except.error.injEq] at h
      exact .inr ⟨config, hresult.trans (congrArg _ h)⟩
    | ok found =>
      simp only [hresult, Except.map] at h
      cases h

/-- The message of a failed check has no zero in it: what it quotes comes from texts that have none.
-/
theorem Reads.zeroFree_failed {source? config? : Option (List UInt8)} {source : String}
    {settings? : Option String} (h : Reads source? config? source settings?) {e : LintError}
    (he : (checkText source settings?).1 = .error e) :
    ZeroFree (InterfaceError.failed e).message := by
  refine zeroFree_append.mpr ⟨zeroFree_ofList (by decide), ?_⟩
  rcases load_or_check_of_checkText_eq_error he with hload | ⟨config, hcheck⟩
  · cases settings? with
    | none => cases hload
    | some text => exact ConfigLoader.zeroFree_message h.zeroFree_settings hload
  · exact Analyzer.zeroFree_message h.zeroFree_source hcheck

/-- What a call with two texts comes to. -/
theorem Reads.answer_cases {source? config? : Option (List UInt8)} {source : String}
    {settings? : Option String} (h : Reads source? config? source settings?) :
    (∃ e, firstFault? source? config? = some (.failed e) ∧
        (answer source? config?).1 = .error (.failed e) ∧
        ZeroFree (InterfaceError.failed e).message) ∨
      ∃ config found, firstFault? source? config? = none ∧
        (Config.load settings?).1 = .ok config ∧
        ((Analyzer.new config).check source).result = .ok found ∧
        (answer source? config?).1 = .ok (report reportStyle source found) ∧
        ZeroFree (report reportStyle source found) := by
  cases hchecked : (checkText source settings?).1 with
  | error e =>
    refine .inl ⟨e, ?_, ?_, h.zeroFree_failed hchecked⟩
    · rw [h.firstFault?_eq, hchecked]
      rfl
    · rw [h.answer_eq, hchecked]
      rfl
  | ok text =>
    obtain ⟨config, found, hload, hfound, rfl⟩ := exists_of_checkText_eq_ok hchecked
    have hzero := Analyzer.zeroFree_report h.zeroFree_source hfound
    -- the report is free of zeros, so it can be sent as it is
    refine .inr ⟨config, found, ?_, hload, hfound, ?_, hzero⟩
    · rw [h.firstFault?_eq, hchecked]
      rfl
    · rw [h.answer_eq, hchecked]
      exact if_pos (isSendable_iff.mpr hzero)

/-- A call that fails names its first fault. Reports are never held back, so `unsendable` is not
among the errors. -/
theorem answer_of_firstFault? {source? config? : Option (List UInt8)} {e : InterfaceError}
    (h : firstFault? source? config? = some e) :
    (answer source? config?).1 = .error e ∧ e ≠ .unsendable ∧ ZeroFree e.message := by
  by_cases hreads : ∃ source settings?, Reads source? config? source settings?
  · obtain ⟨source, settings?, hreads⟩ := hreads
    rcases hreads.answer_cases with ⟨e', hfirst, hanswer, hzero⟩ | ⟨config, found, hfirst, -⟩
    · obtain rfl := Option.some.inj (hfirst.symm.trans h)
      exact ⟨hanswer, nofun, hzero⟩
    · exact absurd (hfirst.symm.trans h) nofun
  · obtain ⟨e', hfirst, hanswer, herror⟩ := answer_of_unread hreads
    obtain rfl := Option.some.inj (hfirst.symm.trans h)
    rcases herror with rfl | ⟨malformed, rfl⟩
    · exact ⟨hanswer, nofun, zeroFree_ofList (by decide)⟩
    · exact ⟨hanswer, nofun, zeroFree_malformedText malformed⟩

/-- A call without a fault gives the report of a check. -/
theorem exists_of_firstFault?_eq_none {source? config? : Option (List UInt8)}
    (h : firstFault? source? config? = none) :
    ∃ source settings? config found, Reads source? config? source settings? ∧
      (Config.load settings?).1 = .ok config ∧
      ((Analyzer.new config).check source).result = .ok found ∧
      (answer source? config?).1 = .ok (report reportStyle source found) ∧
      ZeroFree (report reportStyle source found) := by
  by_cases hreads : ∃ source settings?, Reads source? config? source settings?
  · obtain ⟨source, settings?, hreads⟩ := hreads
    rcases hreads.answer_cases with ⟨e, hfirst, -⟩ | ⟨config, found, -, hload, hfound, hanswer⟩
    · exact absurd (h.symm.trans hfirst) nofun
    · exact ⟨source, settings?, config, found, hreads, hload, hfound, hanswer⟩
  · obtain ⟨e, hfirst, -⟩ := answer_of_unread hreads
    exact absurd (h.symm.trans hfirst) nofun

/-- Of all that is wrong with a call the first fault decides. -/
theorem answer_eq_error {source? config? : Option (List UInt8)} {e : InterfaceError} :
    (answer source? config?).1 = .error e ↔ firstFault? source? config? = some e := by
  refine ⟨fun h => ?_, fun h => (answer_of_firstFault? h).1⟩
  cases hfirst : firstFault? source? config? with
  | none =>
    obtain ⟨source, settings?, config, found, -, -, -, hanswer, -⟩ :=
      exists_of_firstFault?_eq_none hfirst
    exact absurd (hanswer.symm.trans h) nofun
  | some e' =>
    have hanswer := (answer_of_firstFault? hfirst).1
    exact congrArg _ (Except.error.inj (hanswer.symm.trans h))

end Engine

end Interface

open Interface

/-! ## Calls one after the other -/

/-- The error that a call records, if it does. -/
def Call.error? [PatternEngine] : Call → Option String
  | .check source? config? => (firstFault? source? config?).map InterfaceError.message
  | .lastError | .releaseNothing => none

/-- What is owed to a call that has a source checked. -/
structure Exchange.LawfulCheck [PatternEngine] (x : Exchange)
    (source? config? : Option (List UInt8)) : Prop where
  none_iff : x.answer? = none ↔ ∃ error, x.after = x.before.record error
  failed : ∀ e, firstFault? source? config? = some e →
    x.answer? = none ∧ x.after = x.before.record e.message ∧ e ≠ .unsendable ∧ ZeroFree e.message
  passed : firstFault? source? config? = none →
    x.after = x.before ∧ ∃ source settings? config found text,
      Reads source? config? source settings? ∧ (Config.load settings?).1 = .ok config ∧
      ((Analyzer.new config).check source).result = .ok found ∧
      x.answer? = some text ∧ text = report reportStyle source found ∧
      ZeroFree text ∧ (text = "" ↔ found = [])

/-- What is owed to a call. -/
structure Exchange.Lawful [PatternEngine] (x : Exchange) : Prop where
  check : ∀ source? config?, x.call = .check source? config? → x.LawfulCheck source? config?
  lastError : x.call = .lastError → x.after = x.before ∧ x.answer? = x.before.errors.getLast?
  releaseNothing : x.call = .releaseNothing → x.after = x.before ∧ x.answer? = none

namespace ErrorList

/-- A list of errors with one more is another one. -/
theorem ne_record (l : ErrorList) (error : String) : l ≠ l.record error := by
  intro h
  have hlength := congrArg (fun l => l.errors.length) h
  simp [record] at hlength

/-- Whether every error can be handed over. -/
def Readable (l : ErrorList) : Prop :=
  ∀ error ∈ l.errors, ZeroFree error

/-- The last error of a readable list can be handed out. -/
theorem Readable.last?_eq {l : ErrorList} (h : l.Readable) : l.last? = l.errors.getLast? := by
  rw [last?]
  cases hlast : l.errors.getLast? with
  | none => rfl
  | some error => simp [isSendable_iff.mpr (h error (List.mem_of_getLast? hlast))]

/-- A list without errors is readable. -/
theorem readable_empty : empty.Readable :=
  nofun

section Engine

variable [PatternEngine]

/-- A call that fails answers nothing and is recorded. -/
theorem exchange_of_error {source? config? : Option (List UInt8)} {e : InterfaceError}
    (h : (answer source? config?).1 = .error e) (l : ErrorList) :
    l.exchange (.check source? config?) =
      ⟨.check source? config?, l, none, l.record e.message⟩ := by
  rcases hresult : answer source? config? with ⟨result, log⟩
  obtain rfl : result = .error e := by rw [← h, hresult]
  simp only [exchange, check, hresult]

/-- A call that goes well leaves the list as it is. -/
theorem exchange_of_ok {source? config? : Option (List UInt8)} {text : String}
    (h : (answer source? config?).1 = .ok text) (l : ErrorList) :
    l.exchange (.check source? config?) = ⟨.check source? config?, l, some text, l⟩ := by
  rcases hresult : answer source? config? with ⟨result, log⟩
  obtain rfl : result = .ok text := by rw [← h, hresult]
  simp only [exchange, check, hresult]

/-- A call that has a source checked records the first fault. -/
theorem lawfulCheck_exchange (l : ErrorList) (source? config? : Option (List UInt8)) :
    (l.exchange (.check source? config?)).LawfulCheck source? config? := by
  cases hfirst : firstFault? source? config? with
  | some e =>
    obtain ⟨hanswer, hsendable, hzero⟩ := answer_of_firstFault? hfirst
    rw [exchange_of_error hanswer]
    refine ⟨⟨fun _ => ⟨e.message, rfl⟩, fun _ => rfl⟩, fun e' he' => ?_, fun h => ?_⟩
    · obtain rfl := Option.some.inj (hfirst.symm.trans he')
      exact ⟨rfl, rfl, hsendable, hzero⟩
    · exact absurd (hfirst.symm.trans h) nofun
  | none =>
    obtain ⟨source, settings?, config, found, hreads, hload, hfound, hanswer, hzero⟩ :=
      exists_of_firstFault?_eq_none hfirst
    rw [exchange_of_ok hanswer]
    refine ⟨⟨nofun, ?_⟩, fun e he => ?_, fun _ => ⟨rfl, ?_⟩⟩
    · rintro ⟨error, h⟩
      exact absurd h (l.ne_record error)
    · exact absurd (hfirst.symm.trans he) nofun
    · exact ⟨source, settings?, config, found, _, hreads, hload, hfound, rfl, rfl, hzero,
        report_eq_empty⟩

/-- No call fails with a message that could not be handed out. -/
theorem zeroFree_of_error? {call : Call} {error : String} (h : call.error? = some error) :
    ZeroFree error := by
  cases call with
  | check source? config? =>
    obtain ⟨e, hfirst, rfl⟩ := Option.map_eq_some_iff.mp h
    exact (answer_of_firstFault? hfirst).2.2
  | lastError | releaseNothing => cases h

/-- The errors after a call. -/
theorem errors_after_exchange (l : ErrorList) (call : Call) :
    (l.exchange call).after.errors = l.errors ++ call.error?.toList := by
  cases call with
  | check source? config? =>
    have hlawful := l.lawfulCheck_exchange source? config?
    cases hfirst : firstFault? source? config? with
    | some e =>
      obtain ⟨-, hafter, -⟩ := hlawful.failed e hfirst
      rw [hafter, Call.error?, hfirst]
      rfl
    | none =>
      rw [(hlawful.passed hfirst).1, Call.error?, hfirst]
      exact (List.append_nil _).symm
  | lastError | releaseNothing => exact (List.append_nil _).symm

/-- So the list stays readable over every call. -/
theorem Readable.exchange {l : ErrorList} (h : l.Readable) (call : Call) :
    (l.exchange call).after.Readable := by
  intro error herror
  rw [errors_after_exchange, List.mem_append, Option.mem_toList] at herror
  exact herror.elim (h error) zeroFree_of_error?

/-- One call. -/
theorem Readable.lawful_exchange {l : ErrorList} (h : l.Readable) (call : Call) :
    (l.exchange call).Lawful := by
  cases call with
  | check source? config? =>
    refine ⟨fun s c hcall => ?_, nofun, nofun⟩
    cases hcall
    exact l.lawfulCheck_exchange source? config?
  | lastError => exact ⟨nofun, fun _ => ⟨rfl, h.last?_eq⟩, nofun⟩
  | releaseNothing => exact ⟨nofun, nofun, fun _ => ⟨rfl, rfl⟩⟩

/-- Each call is answered once and in its turn. -/
theorem map_call_exchanges (l : ErrorList) (calls : List Call) :
    (l.exchanges calls).map Exchange.call = calls := by
  induction calls generalizing l with
  | nil => rfl
  | cons call calls ih =>
    rw [exchanges, List.map_cons, ih]
    cases call <;> rfl

/-- The errors of the first calls are that of the first one and those of the others. -/
theorem filterMap_error?_take_succ (call : Call) (calls : List Call) (i : Nat) :
    ((call :: calls).take (i + 1)).filterMap Call.error? =
      call.error?.toList ++ (calls.take i).filterMap Call.error? := by
  rw [List.take_succ_cons, List.filterMap_cons]
  cases call.error? <;> rfl

/-- A row of calls: before each the errors are those of the calls in front of it. -/
theorem Readable.lawful_getElem? {l : ErrorList} (h : l.Readable) {calls : List Call} {i : Nat}
    {x : Exchange} (hx : (l.exchanges calls)[i]? = some x) :
    x.Lawful ∧ x.before.errors = l.errors ++ (calls.take i).filterMap Call.error? ∧
      x.after.errors = l.errors ++ (calls.take (i + 1)).filterMap Call.error? := by
  induction calls generalizing l i with
  | nil => cases hx
  | cons call calls ih =>
    rw [filterMap_error?_take_succ]
    cases i with
    | zero =>
      obtain rfl := Option.some.inj hx
      refine ⟨h.lawful_exchange call, ?_, ?_⟩
      · cases call <;> exact (List.append_nil _).symm
      · rw [errors_after_exchange, List.take_zero, List.filterMap_nil, List.append_nil]
    | succ i =>
      obtain ⟨hlawful, hbefore, hafter⟩ := ih (h.exchange call) hx
      rw [errors_after_exchange, List.append_assoc] at hbefore hafter
      rw [filterMap_error?_take_succ]
      exact ⟨hlawful, hbefore, hafter⟩

/-- Calls from the start: each gets what it is owed, the errors are those of the failed checks so
far, and the latest error right after a failed check is the error of that check. -/
theorem lawful_exchanges (calls : List Call) :
    (empty.exchanges calls).map Exchange.call = calls ∧
      ∀ i x, (empty.exchanges calls)[i]? = some x →
        x.Lawful ∧ x.before.errors = (calls.take i).filterMap Call.error? ∧
        x.after.errors = (calls.take (i + 1)).filterMap Call.error? ∧
        ∀ source? config? y, x.call = .check source? config? → x.answer? = none →
          (empty.exchanges calls)[i + 1]? = some y → y.call = .lastError →
          ∃ e, firstFault? source? config? = some e ∧ y.answer? = some e.message := by
  refine ⟨map_call_exchanges _ _, fun i x hx => ?_⟩
  obtain ⟨hlawful, hbefore, hafter⟩ := readable_empty.lawful_getElem? hx
  refine ⟨hlawful, hbefore, hafter, fun source? config? y hcall hnone hy hlast => ?_⟩
  obtain ⟨hlawfulNext, hbeforeNext, -⟩ := readable_empty.lawful_getElem? hy
  have hcheck := hlawful.check source? config? hcall
  cases hfirst : firstFault? source? config? with
  | none =>
    obtain ⟨-, source, settings?, config, found, text, -, -, -, hsome, -⟩ := hcheck.passed hfirst
    exact absurd (hnone.symm.trans hsome) nofun
  | some e =>
    obtain ⟨-, hrecord, -⟩ := hcheck.failed e hfirst
    refine ⟨e, rfl, ?_⟩
    -- the record behind the call is the one before the next, and its last entry is the error
    rw [(hlawfulNext.lastError hlast).2, hbeforeNext, ← hafter, hrecord]
    exact List.getLast?_concat

end Engine

/-- A check without a source, and then one of a source with an empty class. -/
def mixedCalls : List Call :=
  [.check none none, .lastError, .check (some [99, 108, 97, 115, 115, 32, 65, 123, 125, 0]) none,
    .releaseNothing]

open scoped Pattern.Plain in
/-- The error of the first check, and the empty report of the second. -/
theorem lawful_exchanges_mixedCalls :
    (empty.exchanges mixedCalls).map Exchange.answer? =
        [none, some "the passed source pointer is null", some "", none] ∧
      ∃ x, (empty.exchanges mixedCalls)[2]? = some x ∧ x.Lawful ∧
        x.before.errors = ["the passed source pointer is null"] ∧ x.after = x.before := by
  obtain ⟨-, hall⟩ := lawful_exchanges mixedCalls
  obtain ⟨hlawful, hbefore, -⟩ := hall 2 _ rfl
  have hfirst : firstFault? (some [99, 108, 97, 115, 115, 32, 65, 123, 125, 0]) none = none := by
    decide +kernel
  exact ⟨by decide +kernel, _, rfl, hlawful, hbefore, ((hlawful.check _ _ rfl).passed hfirst).1⟩

end ErrorList

end FieldShadow
