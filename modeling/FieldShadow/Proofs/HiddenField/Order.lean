import FieldShadow.Proofs.Concatenation
import FieldShadow.Proofs.Diagnostic.Limit
import FieldShadow.Proofs.Grammar.TokenOrder

/-!
# Reports at their names

Each report stands exactly on the name of a declaration, and the reports come in the order of the
text (`Analyzer.reports_at_names`). The spans are those of tokens from the start: the grammar gives
them to outlines in token order, a walk comes past the outlines in theirs, and grading and limiting
leave out reports but move none.
-/

namespace FieldShadow

open Cursor Outline

/-! ## Reports -/

namespace Diagnostic

/-- A report of the rule about a name. -/
structure IsReport (d : Diagnostic) (name : String) : Prop where
  rule : d.rule = "hidden-field"
  message : d.message = "'" ++ name ++ "' hides a field."
  arguments : d.arguments = [name]

/-- The identifier that a report is about, at the place of the report. -/
def nameToken? (d : Diagnostic) : Option Lexeme :=
  d.arguments.head?.map fun name => ⟨.identifier name, d.span⟩

/-- A report stands for the identifier that it quotes, at its span. -/
theorem IsReport.nameToken?_eq {d : Diagnostic} {name : String} (h : d.IsReport name) :
    d.nameToken? = some ⟨.identifier name, d.span⟩ := by
  rw [nameToken?, h.arguments]
  rfl

/-- If the identifiers that some reports are about are tokens of a row, so is that of each. -/
theorem IsReport.mem_of_sublist {d : Diagnostic} {name : String} {found : List Diagnostic}
    {ls : List Lexeme} (h : d.IsReport name) (hd : d ∈ found)
    (hnames : (found.filterMap nameToken?).Sublist ls) : ⟨.identifier name, d.span⟩ ∈ ls :=
  hnames.subset (List.mem_filterMap.mpr ⟨d, hd, h.nameToken?_eq⟩)

/-- A report that is made an error is a report still. -/
theorem IsReport.promoted {d : Diagnostic} {name : String} (h : d.IsReport name) :
    d.promoted.IsReport name := by
  unfold Diagnostic.promoted
  split
  · exact ⟨h.rule, h.message, h.arguments⟩
  · exact h

theorem nameToken?_promoted (d : Diagnostic) : d.promoted.nameToken? = d.nameToken? := by
  unfold promoted
  split <;> rfl

end Diagnostic

/-- Which errors are kept is decided by their number, not by their places. -/
theorem keepErrors_moved (move : Span → Span) (limit : Nat) (found : List Diagnostic) :
    keepErrors limit (found.map (Diagnostic.moved move)) =
      (keepErrors limit found).map (Diagnostic.moved move) := by
  have herror (d : Diagnostic) : (d.moved move).isError = d.isError := rfl
  fun_induction keepErrors limit found with
  | case1 => rfl
  | case2 limit d ds _ ih | case3 d ds _ ih | case4 d ds _ limit ih =>
    simp_all [keepErrors]

theorem errorCount_moved (move : Span → Span) (found : List Diagnostic) :
    errorCount (found.map (Diagnostic.moved move)) = errorCount found := by
  rw [errorCount, List.countP_map]
  rfl

namespace Config

variable {c : Config} {found : List Diagnostic}

/-- Grading turns reports into reports. -/
theorem isReport_of_mem_regrade (h : ∀ d ∈ found, ∃ name, d.IsReport name) :
    ∀ d ∈ c.regrade found, ∃ name, d.IsReport name := by
  unfold regrade
  split
  · refine List.forall_mem_map.mpr fun d hd => ?_
    obtain ⟨name, hname⟩ := h d hd
    exact ⟨name, hname.promoted⟩
  · exact h

theorem filterMap_nameToken?_regrade (c : Config) (found : List Diagnostic) :
    (c.regrade found).filterMap Diagnostic.nameToken? = found.filterMap Diagnostic.nameToken? := by
  unfold regrade
  split
  · rw [List.filterMap_map]
    exact List.filterMap_congr fun d _ => d.nameToken?_promoted
  · rfl

/-- What is reported: findings in their order, and at most one note about the limit behind them.
Where the findings stand has no influence on either. -/
theorem exists_postProcess (c : Config) (found : List Diagnostic) :
    ∃ kept note : List Diagnostic, c.postProcess found = kept ++ note ∧
      kept.Sublist (c.regrade found) ∧ note.length ≤ 1 ∧ (∀ d ∈ note, d.rule = "error-limit") ∧
      ∀ move, c.postProcess (found.map (Diagnostic.moved move)) =
        kept.map (Diagnostic.moved move) ++ note := by
  unfold postProcess
  simp only [regrade_moved, errorCount_moved, keepErrors_moved]
  split
  · exact ⟨c.regrade found, [], by simp, .refl _, by simp, by simp, by simp⟩
  · next limit _ =>
    split
    · exact ⟨c.regrade found, [], by simp, .refl _, by simp, by simp, by simp⟩
    · exact ⟨_, [limitNote (errorCount (c.regrade found)) limit], rfl, keepErrors_sublist limit _,
        by simp, by simp [limitNote], fun _ => rfl⟩

end Config

/-! ## Reports of a tree -/

namespace SyntaxTree

variable {t : SyntaxTree} {s : Settings}

/-- What is reported of a tree are reports of names. -/
theorem isReport_of_mem_shadowings {d : Diagnostic} (h : d ∈ t.shadowings s) :
    ∃ name, d.IsReport name := by
  obtain ⟨node, -, hnode⟩ := List.mem_filterMap.mp h
  obtain ⟨n, name, kind, -, -, -, rfl⟩ := shadowing?_eq_some.mp hnode
  exact ⟨name, rfl, rfl, rfl⟩

/-- The name in a report is the one that the node declares, at the same span. -/
theorem nameToken?_of_shadowing? {node : Nat} {d : Diagnostic} (h : t.shadowing? s node = some d) :
    d.nameToken? = t.nameToken? node := by
  obtain ⟨n, name, kind, hn, hdeclares, -, rfl⟩ := shadowing?_eq_some.mp h
  rw [SyntaxTree.nameToken?, hn, Option.bind_some, NodeKind.nameToken?, hdeclares]
  rfl

/-- The names in the reports of a tree are names that it declares, in the order of a walk. -/
theorem filterMap_nameToken?_shadowings (t : SyntaxTree) (s : Settings) :
    ((t.shadowings s).filterMap Diagnostic.nameToken?).Sublist t.declaredNames := by
  rw [shadowings, declaredNames]
  induction t.preorder root with
  | nil => exact .slnil
  | cons node nodes ih =>
    rw [List.filterMap_cons, List.filterMap_cons (f := t.nameToken?)]
    cases hd : t.shadowing? s node with
    | none =>
      cases t.nameToken? node with
      | none => exact ih
      | some l => exact ih.cons l
    | some d =>
      dsimp only
      -- a report names the token that its node is named by
      rw [List.filterMap_cons, nameToken?_of_shadowing? hd]
      cases t.nameToken? node with
      | none => exact ih
      | some l => exact ih.cons_cons l

end SyntaxTree

/-- The names of a unit are tokens of it, in their order. -/
theorem Cursor.namesAll_sublist {c : Cursor} {os : List Outline} (h : c.outlines = .ok os) :
    (namesAll os).Sublist c.pending := by
  obtain ⟨r, hr, rfl⟩ := map_eq_ok.mp h
  exact (drawn_of_declarations hr).names_sublist

namespace Analyzer

/-! ## Reports of a check -/

/-- What the rule finds in some declarations, if it is switched on. -/
def findings (config : Config) (os : List Outline) : List Diagnostic :=
  if HiddenFieldRule.id ∈ config.disabledRules then []
  else (SyntaxTree.ofOutlines os).shadowings config.hiddenField

/-- An analysis of outlines gives their findings, cut at the limit. -/
theorem result_analyze_ofOutlines (config : Config) (os : List Outline) :
    ((new config).analyze (.ofOutlines os)).result =
      .ok (config.postProcess (findings config os)) :=
  analyze_eq (SyntaxTree.grown_ofOutlines os).linked config

theorem result_check_of_outlines (config : Config) {source : String} {ls : List Lexeme}
    {os : List Outline} (h : tokenize source = .ok ls) (hos : (ofLexemes ls).outlines = .ok os) :
    ((new config).check source).result = .ok (config.postProcess (findings config os)) :=
  result_check_eq_ok.mpr ⟨ls, os, h, hos, result_analyze_ofOutlines config os⟩

/-- A check of a text that is not read fails with the error of the reader. -/
theorem result_check_of_error {config : Config} {source : String} {ls : List Lexeme}
    {e : SyntaxError} (h : tokenize source = .ok ls) (he : (ofLexemes ls).outlines = .error e) :
    ((new config).check source).result = .error (.unparsable (.grammar e)) := by
  unfold outlines at he
  cases hr : (ofLexemes ls).declarations with
  | ok r =>
    rw [hr] at he
    cases he
  | error e' =>
    rw [hr] at he
    cases he
    simp [check, h, Parser.next, Parser.ofLexemes, hr]

/-- The findings of outlines are reports of names. -/
theorem isReport_of_mem_findings {config : Config} {os : List Outline} :
    ∀ d ∈ findings config os, ∃ name, d.IsReport name := by
  unfold findings
  split
  · simp
  · exact fun d hd => SyntaxTree.isReport_of_mem_shadowings hd

/-- Their names are among those of the outlines, in the same order, each at most once. -/
theorem filterMap_nameToken?_findings (config : Config) (os : List Outline) :
    ((findings config os).filterMap Diagnostic.nameToken?).Sublist (namesAll os) := by
  unfold findings
  split
  · exact List.nil_sublist _
  · rw [← SyntaxTree.declaredNames_ofOutlines]
    exact SyntaxTree.filterMap_nameToken?_shadowings _ _

/-- What is kept of the findings about a unit is about tokens of it, in their order. -/
theorem filterMap_nameToken?_kept {config : Config} {c : Cursor} {os : List Outline}
    {kept : List Diagnostic} (hos : c.outlines = .ok os)
    (hkept : kept.Sublist (config.regrade (findings config os))) :
    (∀ d ∈ kept, ∃ name, d.IsReport name) ∧
      (kept.filterMap Diagnostic.nameToken?).Sublist c.pending := by
  constructor
  · exact fun d hd => Config.isReport_of_mem_regrade isReport_of_mem_findings d (hkept.subset hd)
  · refine (hkept.filterMap _).trans ?_
    rw [Config.filterMap_nameToken?_regrade]
    exact (filterMap_nameToken?_findings config os).trans (namesAll_sublist hos)

/-- A check reports about identifiers of the text in their order, and behind that it may note that
there were more errors. -/
theorem exists_kept {source : String} {config : Config} {found : List Diagnostic}
    (h : ((new config).check source).result = .ok found) :
    ∃ ls kept note, tokenize source = .ok ls ∧ found = kept ++ note ∧ note.length ≤ 1 ∧
      (∀ d ∈ note, d.rule = "error-limit") ∧ (∀ d ∈ kept, ∃ name, d.IsReport name) ∧
      (kept.filterMap Diagnostic.nameToken?).Sublist ls := by
  obtain ⟨ls, os, hls, hos, hfound⟩ := result_check_eq_ok.mp h
  obtain ⟨kept, note, heq, hkept, hlength, hnote, -⟩ :=
    config.exists_postProcess (findings config os)
  obtain ⟨hreports, hnames⟩ := filterMap_nameToken?_kept hos hkept
  rw [result_analyze_ofOutlines, heq] at hfound
  exact ⟨ls, kept, note, hls, (Except.ok.inj hfound).symm, hlength, hnote, hreports,
    hnames.trans (pending_ofLexemes_sublist ls)⟩

/-- A report is of the rule, which tells it from the note about the limit. -/
theorem rule_of_mem_kept {kept : List Diagnostic} (h : ∀ d ∈ kept, ∃ name, d.IsReport name) :
    ∀ d ∈ kept, d.rule = "hidden-field" := by
  intro d hd
  obtain ⟨name, hname⟩ := h d hd
  exact hname.rule

/-- A report is about an identifier of the text. -/
theorem exists_identifier {source : String} {config : Config} {found : List Diagnostic}
    (h : ((new config).check source).result = .ok found) {d : Diagnostic} (hd : d ∈ found)
    (hrule : d.rule = "hidden-field") :
    ∃ name ls, d.IsReport name ∧ tokenize source = .ok ls ∧ ⟨.identifier name, d.span⟩ ∈ ls := by
  obtain ⟨ls, kept, note, hls, rfl, -, hnote, hreports, hnames⟩ := exists_kept h
  have hkept : d ∈ kept := by
    refine (List.mem_append.mp hd).resolve_right fun hd => ?_
    rw [hnote d hd] at hrule
    exact absurd hrule (by decide)
  obtain ⟨name, hname⟩ := hreports d hkept
  exact ⟨name, ls, hname, hls, hname.mem_of_sublist hkept hnames⟩

/-- The reports come in the order of the text. -/
theorem pairwise_start_reports {source : String} {config : Config} {found : List Diagnostic}
    (h : ((new config).check source).result = .ok found) :
    (found.filter fun d => d.rule = "hidden-field").Pairwise
      fun d d' => d.span.start < d'.span.start := by
  obtain ⟨ls, kept, note, hls, rfl, -, hnote, hreports, hnames⟩ := exists_kept h
  have hnone : note.filter (fun d => d.rule = "hidden-field") = [] := by
    refine List.filter_eq_nil_iff.mpr fun d hd => ?_
    rw [hnote d hd]
    decide
  have hpairwise := List.pairwise_filterMap.mp ((pairwise_span hls).sublist hnames)
  rw [List.filter_append, hnone, List.append_nil]
  refine (hpairwise.imp_of_mem fun {d d'} hd hd' hlt => ?_).filter _
  obtain ⟨name, hname⟩ := hreports d hd
  obtain ⟨name', hname'⟩ := hreports d' hd'
  exact (hlt _ hname.nameToken?_eq _ hname'.nameToken?_eq).1

/-- A report reaches from the first to the last character of the name that it is about. -/
theorem characters_of_report {source : String} {config : Config} {found : List Diagnostic}
    (h : ((new config).check source).result = .ok found) {d : Diagnostic} (hd : d ∈ found)
    (hrule : d.rule = "hidden-field") :
    ∃ name ls, d.arguments = [name] ∧ d.span.start.line = d.span.stop.line ∧
      d.span.characters source.toList = name.toList ∧ tokenize source = .ok ls ∧
      ⟨.identifier name, d.span⟩ ∈ ls := by
  obtain ⟨name, ls, hname, hls, hmem⟩ := exists_identifier h hd hrule
  obtain ⟨front, word, last, rest, htext, hword, hspan, hparts⟩ := exists_of_identifier hls hmem
  refine ⟨name, ls, hname.arguments, ?_, ?_, hls, hmem⟩
  · rw [hspan]
    exact Position.line_behind_append fun hmem =>
      absurd (hparts '\n' (by simp [hword, hmem])) (by decide)
  · rw [htext, hspan, hword, Span.characters_eq]

/-- In front of the last place stand no notes about the limit. -/
theorem rule_ne_of_mem_dropLast {source : String} {config : Config} {found : List Diagnostic}
    (h : ((new config).check source).result = .ok found) {d : Diagnostic}
    (hd : d ∈ found.dropLast) : d.rule ≠ "error-limit" := by
  obtain ⟨ls, kept, note, -, rfl, hlength, -, hreports, -⟩ := exists_kept h
  have hkept : d ∈ kept := by
    match note, hlength with
    | [], _ => exact (List.dropLast_sublist kept).subset (by simpa using hd)
    | [last], _ => simpa using hd
  rw [rule_of_mem_kept hreports d hkept]
  decide

/-- Reports stand on names, each on one line and from the first to the last character of the name,
which is a token of the text. They come in the order of the text, and a note about the limit comes
last. -/
theorem reports_at_names {source : String} {config : Config} {found : List Diagnostic}
    (h : ((new config).check source).result = .ok found) :
    (found.filter fun d => d.rule = "hidden-field").Pairwise
        (fun d d' => d.span.start < d'.span.start) ∧
      (∀ d ∈ found, d.rule = "hidden-field" → ∃ name ls, d.arguments = [name] ∧
        d.span.start.line = d.span.stop.line ∧ d.span.characters source.toList = name.toList ∧
        tokenize source = .ok ls ∧ ⟨.identifier name, d.span⟩ ∈ ls) ∧
      ∀ d ∈ found.dropLast, d.rule ≠ "error-limit" :=
  ⟨pairwise_start_reports h, fun _ hd hrule => characters_of_report h hd hrule,
    fun _ hd => rule_ne_of_mem_dropLast h hd⟩

/-- A class with two fields that are hidden three times, once inside an anonymous class. -/
def nestedSource : String :=
  "class A \x7b int x, size;\n" ++
    "  void f(int x) \x7b new B() \x7b void g(int size) \x7b\x7d \x7d; int x; \x7d \x7d"

/-- What is reported about `nestedSource` if two errors are allowed. -/
def nestedReports : List Diagnostic :=
  [⟨"hidden-field", .error, "'x' hides a field.", ["x"], .at ⟨2, 14⟩⟩,
    ⟨"hidden-field", .error, "'size' hides a field.", ["size"], ⟨⟨2, 40⟩, ⟨2, 43⟩⟩⟩,
    ⟨"error-limit", .info, "Too many errors (3), only the first 2 are reported", ["3", "2"],
      .at ⟨0, 0⟩⟩]

/-- In a text with a nested class and a limit: two reports, in the order of their places, and the
note. -/
theorem reports_at_names_nestedSource :
    (nestedReports.filter fun d => d.rule = "hidden-field").Pairwise
        (fun d d' => d.span.start < d'.span.start) ∧
      (∀ d ∈ nestedReports, d.rule = "hidden-field" → ∃ name ls, d.arguments = [name] ∧
        d.span.start.line = d.span.stop.line ∧
        d.span.characters nestedSource.toList = name.toList ∧
        tokenize nestedSource = .ok ls ∧ ⟨.identifier name, d.span⟩ ∈ ls) ∧
      ∀ d ∈ nestedReports.dropLast, d.rule ≠ "error-limit" := by
  have hcheck : ((new { errorLimit? := some 2 }).check nestedSource).result = .ok nestedReports :=
    eq_ok_of_toOption (by decide +kernel)
  exact reports_at_names hcheck

end Analyzer

end FieldShadow
