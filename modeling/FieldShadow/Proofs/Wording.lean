import FieldShadow.Proofs.Config.LastLine
import FieldShadow.Proofs.Diagnostic.Report
import FieldShadow.Proofs.Text.Zero

/-!
# Wording without zero characters

What is said about a text without zero characters has none either: not the errors of the
configuration, of the scanner and of the grammar, and not a report (`ConfigLoader.zeroFree_message`,
`Analyzer.zeroFree_message`, `Analyzer.zeroFree_report`). Errors of the grammar quote tokens, and
what is quoted is escaped; all others repeat characters of the text as they are.
-/

namespace FieldShadow

open Text

/-! ## Syntax errors -/

/-- The name of a kind of token is a fixed word. -/
theorem Token.zeroFree_kindName (t : Token) : ZeroFree t.kindName := by
  cases t with
  | keyword word => cases word <;> exact zeroFree_ofList (by decide)
  | modifier word => cases word <;> exact zeroFree_ofList (by decide)
  | _ => exact zeroFree_ofList (by decide)

/-- A token is described by its text with what cannot be shown written out, so a zero in it is too.
-/
theorem Token.zeroFree_describe (t : Token) : ZeroFree t.describe := by
  rw [describe]
  split
  · simp only [zeroFree_append]
    exact ⟨⟨⟨t.zeroFree_kindName, zeroFree_ofList (by decide)⟩, zeroFree_quote _⟩,
      zeroFree_ofList (by decide)⟩
  · exact t.zeroFree_kindName

/-- The signs that are asked for have no zero. -/
theorem Mark.zeroFree_spelling (m : Mark) : ZeroFree m.token.spelling := by
  cases m <;> exact zeroFree_ofList (by decide)

theorem Mark.zeroFree_purpose (m : Mark) : ZeroFree m.purpose := by
  cases m <;> exact zeroFree_ofList (by decide)

theorem Demand.zeroFree_text (d : Demand) : ZeroFree d.text := by
  cases d with
  | mark m =>
    change ZeroFree ("Expected " ++ m.token.describe ++ ". Expected '" ++ m.token.spelling ++ "'" ++
      m.purpose)
    simp only [zeroFree_append]
    exact ⟨⟨⟨⟨⟨zeroFree_ofList (by decide), m.token.zeroFree_describe⟩,
      zeroFree_ofList (by decide)⟩, m.zeroFree_spelling⟩, zeroFree_ofList (by decide)⟩,
      m.zeroFree_purpose⟩
  | name role =>
    refine zeroFree_append.mpr ⟨zeroFree_ofList (by decide), ?_⟩
    cases role <;> exact zeroFree_ofList (by decide)
  | more inside =>
    refine zeroFree_append.mpr ⟨zeroFree_ofList (by decide), ?_⟩
    cases inside <;> exact zeroFree_ofList (by decide)
  | _ => exact zeroFree_ofList (by decide)

/-- The message of a syntax error, whatever token it is about. -/
theorem SyntaxError.zeroFree_message (e : SyntaxError) : ZeroFree e.message := by
  have hplace : ZeroFree (e.got.describe ++ " at " ++ toString e.position.line ++ ":" ++
      toString e.position.column) := by
    simp only [zeroFree_append]
    exact ⟨⟨⟨⟨e.got.zeroFree_describe, zeroFree_ofList (by decide)⟩, zeroFree_toString _⟩,
      zeroFree_ofList (by decide)⟩, zeroFree_toString _⟩
  rw [message]
  split
  · rw [zeroFree_append, zeroFree_append]
    exact ⟨⟨e.demand.zeroFree_text, zeroFree_ofList (by decide)⟩, hplace⟩
  · rw [zeroFree_append, zeroFree_append, zeroFree_append]
    exact ⟨⟨⟨e.demand.zeroFree_text, zeroFree_ofList (by decide)⟩, hplace⟩,
      zeroFree_ofList (by decide)⟩

/-! ## Flaws of a text -/

/-- The character that the message about a flaw shows. -/
def Flaw.shown? : Flaw → Option Char
  | .strayCharacter c => some c
  | .openLiteral quote => some quote
  | .brokenEllipsis | .openComment => none

namespace Piece

/-- A flaw shows at most the character that it begins with. -/
theorem shown?_of_first {c d : Char} {rest : List Char} {f : Flaw} {n : Nat}
    (h : first c rest = (.flaw f, n)) (hd : f.shown? = some d) : d = c := by
  unfold first at h
  split at h
  · cases h
  · split at h
    case h_12 =>
      unfold dots at h
      split at h <;> cases h
      cases hd
    case h_13 =>
      unfold colons at h
      split at h <;> cases h
    case h_14 =>
      unfold equals at h
      split at h <;> cases h
    case h_15 =>
      unfold slash at h
      split at h
      · cases h
      · split at h <;> cases h
        cases hd
      · cases h
    -- a literal that is not closed names the quote it began with
    case h_16 | h_17 =>
      have h := congrArg Prod.fst h
      simp only [quoted] at h
      split at h
      · cases h
      · obtain rfl := Piece.flaw.inj h
        exact (Option.some.inj hd).symm
    case h_18 =>
      split at h
      · cases h
      · split at h
        · cases h
        · split at h
          · cases h
          · obtain rfl := Piece.flaw.inj (Prod.mk.inj h).1
            exact (Option.some.inj hd).symm
    all_goals cases h

end Piece

theorem Scanner.shown?_of_tokens {s : Scanner} {e : LexError} {d : Char}
    (h : s.tokens = .error e) (hd : e.flaw.shown? = some d) : d ∈ s.rest := by
  fun_induction Scanner.tokens s generalizing e with
  | case1 => cases h
  | case2 s span after hpiece ih =>
    obtain ⟨x, -, hrest, -⟩ := piece?_eq_some hpiece
    rw [hrest]
    exact List.mem_append_right x (ih h hd)
  -- the flaw comes later, in what is left behind this token
  | case3 s t span after hpiece ih =>
    obtain ⟨x, -, hrest, -⟩ := piece?_eq_some hpiece
    rw [hrest]
    cases hafter : after.tokens with
    | error e' =>
      rw [hafter, Except.map, Except.error.injEq] at h
      exact List.mem_append_right x (ih (hafter.trans (congrArg _ h)) hd)
    | ok ls =>
      rw [hafter] at h
      cases h
  | case4 s f span after hpiece =>
    obtain rfl := Except.error.inj h
    obtain ⟨c, rest, n, hrest, hfirst, -⟩ := exists_first_of_piece? hpiece
    rw [hrest, Piece.shown?_of_first hfirst hd]
    exact List.mem_cons_self

theorem LexError.zeroFree_message {source : String} {e : LexError} (hsource : ZeroFree source)
    (h : tokenize source = .error e) : ZeroFree e.message := by
  have hshown : ∀ d, e.flaw.shown? = some d → d ≠ '\x00' := by
    rintro d hd rfl
    exact hsource (Scanner.shown?_of_tokens h hd)
  rw [message]
  split
  · next c hc =>
    have hc : c ≠ '\x00' := hshown c (by rw [hc]; rfl)
    simp only [zeroFree_append]
    exact ⟨⟨⟨⟨⟨zeroFree_ofList (by decide), zeroFree_singleton.mpr hc⟩,
      zeroFree_ofList (by decide)⟩, zeroFree_toString _⟩, zeroFree_ofList (by decide)⟩,
      zeroFree_toString _⟩
  · exact zeroFree_ofList (by decide)
  · next quote hquote =>
    have hquote : quote ≠ '\x00' := hshown quote (by rw [hquote]; rfl)
    rw [zeroFree_append]
    exact ⟨zeroFree_ofList (by decide), zeroFree_singleton.mpr hquote⟩
  · exact zeroFree_ofList (by decide)

/-! ## Configuration texts -/

/-- A refused value is quoted with its property. -/
theorem LintError.zeroFree_invalidValue {property value : String} (hproperty : ZeroFree property)
    (hvalue : ZeroFree value) : ZeroFree (LintError.invalidValue property value).message := by
  refine zeroFree_append.mpr ⟨zeroFree_append.mpr ⟨zeroFree_append.mpr ⟨?_, hproperty⟩, ?_⟩, hvalue⟩
  · exact zeroFree_ofList (by decide)
  · exact zeroFree_ofList (by decide)

/-- A refused truth value is quoted as it stands in the line. -/
theorem Config.zeroFree_flagRefusal? {property value : String} {e : LintError}
    (h : flagRefusal? property value = some e) (hproperty : ZeroFree property)
    (hvalue : ZeroFree value) : ZeroFree e.message := by
  obtain ⟨-, h⟩ := Option.ite_none_left_eq_some.mp h
  obtain rfl := Option.some.inj h
  exact LintError.zeroFree_invalidValue hproperty hvalue

/-- Refused kinds quote an item or the whole value, both of which are in the line. -/
theorem Config.zeroFree_kindsRefusal? {value : String} {e : LintError}
    (h : kindsRefusal? value = some e) (hvalue : ZeroFree value) : ZeroFree e.message := by
  unfold kindsRefusal? at h
  split at h
  · next item hitem =>
    obtain rfl := Option.some.inj h
    have hmem := List.mem_of_find?_eq_some hitem
    exact LintError.zeroFree_invalidValue (zeroFree_ofList (by decide))
      (hvalue.of_subset fun c hc => mem_of_mem_listItems hmem hc)
  · obtain ⟨-, h⟩ := Option.ite_none_right_eq_some.mp h
    obtain rfl := Option.some.inj h
    exact LintError.zeroFree_invalidValue (zeroFree_ofList (by decide)) hvalue

/-- Whatever refuses a value quotes nothing but the line. -/
theorem Config.zeroFree_refusal? [PatternEngine] {key value : String} {e : LintError}
    (h : refusal? key value = some e) (hkey : ZeroFree key) (hvalue : ZeroFree value) :
    ZeroFree e.message := by
  unfold refusal? at h
  split at h
  case h_1 =>
    obtain ⟨-, h⟩ := Option.ite_none_right_eq_some.mp h
    obtain rfl := Option.some.inj h
    exact zeroFree_append.mpr ⟨zeroFree_ofList (by decide), hvalue⟩
  case h_7 => exact zeroFree_kindsRefusal? h hvalue
  case h_8 | h_10 =>
    obtain ⟨-, h⟩ := Option.ite_none_right_eq_some.mp h
    obtain rfl := Option.some.inj h
    exact LintError.zeroFree_invalidValue hkey hvalue
  case h_9 => cases h
  case h_11 =>
    obtain rfl := Option.some.inj h
    exact zeroFree_append.mpr ⟨zeroFree_ofList (by decide), hkey⟩
  -- the flags
  all_goals exact zeroFree_flagRefusal? h hkey hvalue

theorem ConfigLine.zeroFree_fault? [PatternEngine] {line : String} {e : LintError}
    (h : fault? line = some e) (hline : ZeroFree line) : ZeroFree e.message := by
  unfold fault? at h
  split at h
  · obtain rfl := Option.some.inj h
    exact zeroFree_append.mpr ⟨zeroFree_ofList (by decide), hline⟩
  · next key value hsetting =>
    obtain ⟨⟨before, after⟩, hsplit, hparts⟩ := Option.map_eq_some_iff.mp hsetting
    obtain ⟨rfl, rfl⟩ := Prod.mk.inj hparts
    obtain ⟨hline', -⟩ := splitOnce?_eq_some hsplit
    refine Config.zeroFree_refusal? h (hline.of_subset fun c hc => ?_)
      (hline.of_subset fun c hc => ?_)
    · rw [hline']
      exact List.mem_append_left _ (mem_of_mem_trim hc)
    · rw [hline']
      exact List.mem_append_right _ (List.mem_cons_of_mem _ (mem_of_mem_trim hc))

/-- The error of a configuration text. -/
theorem ConfigLoader.zeroFree_message [PatternEngine] {text : String} {e : LintError}
    (htext : ZeroFree text) (h : (standard.load text).1 = .error e) : ZeroFree e.message := by
  obtain ⟨before, line, after, hlines, hfault, -⟩ := load_eq_error.mp h
  have hline : line ∈ ConfigLine.effectiveLines text := by simp [hlines]
  obtain ⟨raw, hraw, rfl⟩ := List.mem_map.mp (List.mem_filter.mp hline).1
  exact ConfigLine.zeroFree_fault? hfault
    (htext.of_subset fun c hc => mem_of_mem_lines hraw (mem_of_mem_trim hc))

/-! ## Reports -/

namespace Diagnostic

/-- The header of a report has its numbers and words around the message and the rule. -/
theorem zeroFree_header {d : Diagnostic} (hmessage : ZeroFree d.message) (hrule : ZeroFree d.rule) :
    ZeroFree (d.header Interface.reportStyle) := by
  have hseverity : ZeroFree d.severity.name := by
    cases d.severity <;> exact zeroFree_ofList (by decide)
  rw [Interface.reportStyle, header_plain]
  simp only [zeroFree_append]
  refine ⟨⟨⟨⟨⟨⟨⟨⟨⟨⟨⟨?_, ?_⟩, zeroFree_toString _⟩, ?_⟩, zeroFree_toString _⟩, ?_⟩, hseverity⟩, ?_⟩,
    hmessage⟩, ?_⟩, hrule⟩, ?_⟩
  all_goals exact zeroFree_ofList (by decide)

/-- Padding is spaces. -/
theorem zeroFree_padding (line : String) (column : Nat) : ZeroFree (padding line column) := by
  refine zeroFree_ofList fun hzero => ?_
  obtain ⟨c, -, hc⟩ := List.mem_map.mp hzero
  split at hc <;> exact absurd hc (by decide)

/-- What a report shows of a finding. -/
theorem zeroFree_reportLines {d : Diagnostic} {lines : List String} (hmessage : ZeroFree d.message)
    (hrule : ZeroFree d.rule) (hlines : ∀ line ∈ lines, ZeroFree line) :
    ∀ line ∈ d.reportLines Interface.reportStyle lines, ZeroFree line := by
  refine List.forall_mem_cons.mpr ⟨zeroFree_header hmessage hrule, ?_⟩
  split
  · exact fun line hline => absurd hline List.not_mem_nil
  · next line hline =>
    have hmem : line ∈ lines := by
      obtain ⟨-, hget⟩ := Option.ite_none_left_eq_some.mp hline
      exact List.mem_of_getElem? hget
    have hempty : ZeroFree "" := zeroFree_ofList (by decide)
    have hcaret : ZeroFree "^" := zeroFree_ofList (by decide)
    have hindent : ZeroFree "    " := zeroFree_ofList (by decide)
    simp only [List.forall_mem_cons, zeroFree_append]
    exact ⟨⟨hindent, hlines line hmem⟩,
      ⟨⟨⟨⟨hindent, zeroFree_padding _ _⟩, hempty⟩, hcaret⟩, hempty⟩, nofun⟩

end Diagnostic

/-! ## Checks -/

namespace Analyzer

/-- A check fails for a flaw of the text or because the grammar does not take its tokens. -/
theorem result_check_eq_error {config : Config} {source : String} {e : LintError} :
    ((new config).check source).result = .error e ↔
      (∃ e', tokenize source = .error e' ∧ e = .lexical e') ∨
        ∃ ls e', tokenize source = .ok ls ∧ (Cursor.ofLexemes ls).declarations = .error e' ∧
          e = .unparsable (.grammar e') := by
  cases hls : tokenize source with
  | error e' => simp [check, hls, eq_comm]
  | ok ls =>
    cases hr : (Cursor.ofLexemes ls).declarations with
    | error e' => simp [check, hls, Parser.next, Parser.ofLexemes, hr, eq_comm]
    | ok r =>
      have hanalyze := result_analyze_ofOutlines config r.value
      simp [check, hls, Parser.next, Parser.ofLexemes, hr, hanalyze]

/-- The error of a source text. -/
theorem zeroFree_message {config : Config} {source : String} {e : LintError}
    (hsource : ZeroFree source) (h : ((new config).check source).result = .error e) :
    ZeroFree e.message := by
  rcases result_check_eq_error.mp h with ⟨e', he', rfl⟩ | ⟨ls, e', -, -, rfl⟩
  · exact zeroFree_append.mpr
      ⟨zeroFree_ofList (by decide), LexError.zeroFree_message hsource he'⟩
  · exact zeroFree_append.mpr ⟨zeroFree_ofList (by decide), e'.zeroFree_message⟩

/-- A finding is worded with a name of the text or with numbers. -/
theorem zeroFree_finding {config : Config} {source : String} {found : List Diagnostic}
    (hsource : ZeroFree source) (h : ((new config).check source).result = .ok found)
    {d : Diagnostic} (hd : d ∈ found) : ZeroFree d.message ∧ ZeroFree d.rule := by
  obtain ⟨ls, os, -, -, hfound⟩ := result_check_eq_ok.mp h
  rw [result_analyze_ofOutlines] at hfound
  rcases Config.mem_regrade_or_limitNote (Except.ok.inj hfound ▸ hd) with
    hkept | ⟨count, limit, rfl⟩
  · obtain ⟨name, hreport⟩ := Config.isReport_of_mem_regrade isReport_of_mem_findings d hkept
    obtain ⟨name, ls, hname, hls, hmem⟩ := exists_identifier h hd hreport.rule
    obtain ⟨front, word, last, rest, htext, -⟩ := exists_of_identifier hls hmem
    rw [hname.message, hname.rule, zeroFree_append, zeroFree_append]
    refine ⟨⟨⟨zeroFree_ofList (by decide), hsource.of_subset fun c hc => ?_⟩,
      zeroFree_ofList (by decide)⟩, zeroFree_ofList (by decide)⟩
    simp [htext, hc]
  · refine ⟨?_, zeroFree_ofList (by decide)⟩
    simp only [limitNote, zeroFree_append]
    exact ⟨⟨⟨⟨zeroFree_ofList (by decide), zeroFree_toString _⟩, zeroFree_ofList (by decide)⟩,
      zeroFree_toString _⟩, zeroFree_ofList (by decide)⟩

/-- The report about a source text. -/
theorem zeroFree_report {config : Config} {source : String} {found : List Diagnostic}
    (hsource : ZeroFree source) (h : ((new config).check source).result = .ok found) :
    ZeroFree (report Interface.reportStyle source found) := by
  refine zeroFree_join fun shown hshown => ?_
  obtain ⟨line, hline, rfl⟩ := List.mem_map.mp hshown
  obtain ⟨d, hd, hline⟩ := List.mem_flatMap.mp hline
  obtain ⟨hmessage, hrule⟩ := zeroFree_finding hsource h hd
  refine zeroFree_append.mpr ⟨?_, zeroFree_ofList (by decide)⟩
  refine Diagnostic.zeroFree_reportLines hmessage hrule (fun line hline => ?_) line hline
  exact hsource.of_subset fun c hc => mem_of_mem_lines hline hc

end Analyzer

end FieldShadow
