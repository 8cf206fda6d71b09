import FieldShadow.Interface
import FieldShadow.Proofs.HiddenField.Order
import FieldShadow.Proofs.Text.Line

/-!
# Carets under names

A report about a name shows the line that the name stands in and below it a caret
(`Analyzer.report_caret`). The place comes from a scanner that counts as it goes, the line from the
text cut into lines; that the caret stands under the first character of the name holds because the
two ways of counting agree, and because no name has a line feed or a carriage return in it.
-/

namespace FieldShadow

open Text

/-- A report about findings is the reports about each of them behind each other. -/
theorem report_append (s : ReportStyle) (source : String) (found found' : List Diagnostic) :
    report s source (found ++ found') = report s source found ++ report s source found' := by
  simp [report]

namespace Diagnostic

/-- The line with a number, as reports show it. -/
theorem lineAt?_of_isLine {source : String} {number : Nat} {line : List Char}
    (h : IsLine source.toList number line) :
    lineAt? (lines source) number = some (String.ofList line) := by
  obtain ⟨hpos, hline⟩ := h.getElem?_eq
  rw [lineAt?, if_neg (Nat.ne_of_gt hpos), lines, List.getElem?_map, hline]
  rfl

/-- The report about one finding, without colors, if the text has its line. -/
theorem report_singleton {d : Diagnostic} {source line : String} (fileName : String)
    (h : IsLine source.toList d.span.start.line line.toList) :
    report ⟨fileName, false⟩ source [d] =
      d.header ⟨fileName, false⟩ ++ "\n" ++ ("    " ++ line ++ "\n") ++
        ("    " ++ padding line d.span.start.column ++ "^" ++ "\n") := by
  have hline := lineAt?_of_isLine h
  rw [String.ofList_toList] at hline
  simp [report, reportLines, hline, ReportStyle.color, ReportStyle.reset, String.append_assoc]

/-- The padding has a tab where the line has one and a blank elsewhere. -/
theorem toList_padding {lead : List Char} {column : Nat} (h : column = lead.length + 1)
    (tail : List Char) :
    (padding (String.ofList (lead ++ tail)) column).toList =
      lead.map fun c => if c = '\t' then '\t' else ' ' := by
  simp [padding, h]

/-- A written number is on one line. -/
theorem count_toDigits (n : Nat) : (Nat.toDigits 10 n).count '\n' = 0 := by
  refine List.count_eq_zero.mpr fun h => ?_
  exact absurd (Nat.isDigit_of_mem_toDigits (by decide) (by decide) h) (by decide)

theorem count_severityName (s : Severity) : s.name.toList.count '\n' = 0 := by
  cases s <;> decide

theorem IsReport.count_message {d : Diagnostic} {name : String} (h : d.IsReport name)
    (hname : '\n' ∉ name.toList) : d.message.toList.count '\n' = 0 := by
  simp [h.message, List.count_eq_zero.mpr hname]

/-- The header without colors. -/
theorem header_plain (d : Diagnostic) (fileName : String) :
    d.header ⟨fileName, false⟩ = fileName ++ ":" ++ toString d.span.start.line ++ ":" ++
      toString d.span.start.column ++ ": " ++ d.severity.name ++ ": " ++ d.message ++ " [" ++
      d.rule ++ "]" := by
  have hheader : d.header ⟨fileName, false⟩ = "" ++ fileName ++ ":" ++
      toString d.span.start.line ++ ":" ++ toString d.span.start.column ++ ":" ++ "" ++ " " ++ "" ++
      d.severity.name ++ "" ++ ": " ++ d.message ++ " [" ++ d.rule ++ "]" := rfl
  rw [hheader]
  simp [String.append_assoc]

/-- The header of a report is one line, but for what the name of the file may hold. -/
theorem IsReport.count_header {d : Diagnostic} {name : String} (h : d.IsReport name)
    (hname : '\n' ∉ name.toList) (fileName : String) :
    (d.header ⟨fileName, false⟩).toList.count '\n' = fileName.toList.count '\n' := by
  simp [header_plain, count_toDigits, count_severityName, h.count_message hname, h.rule]

/-- A text that puts a caret under the name in a line: the line is the one with the number of the
finding, and the name begins in it behind as many characters as the text has. -/
structure CaretUnder (d : Diagnostic) (source name line padding : String) : Prop where
  isLine : IsLine source.toList d.span.start.line line.toList
  length : padding.length = d.span.start.column - 1
  blanks : ∀ i < padding.length,
    padding.toList[i]? = some (if line.toList[i]? = some '\t' then '\t' else ' ')
  begins : name.toList <+: line.toList.drop (d.span.start.column - 1)

/-- A name that stands in a line, with its column counted in characters, has the caret under its
first character: the padding is what stands before it in the line, with spaces for all but tabs. -/
theorem caretUnder_of_isLine {d : Diagnostic} {source name : String} {lead tail : List Char}
    (h : IsLine source.toList d.span.start.line (lead ++ (name.toList ++ tail)))
    (hcolumn : d.span.start.column = lead.length + 1) :
    d.CaretUnder source name (String.ofList (lead ++ (name.toList ++ tail)))
      (padding (String.ofList (lead ++ (name.toList ++ tail))) d.span.start.column) := by
  have hpadding := toList_padding hcolumn (name.toList ++ tail)
  have hlength : (padding (String.ofList (lead ++ (name.toList ++ tail)))
      d.span.start.column).length = lead.length := by
    rw [← String.length_toList, hpadding, List.length_map]
  refine ⟨by rwa [String.toList_ofList], ?_, ?_, ?_⟩
  · rw [hlength, hcolumn, Nat.add_sub_cancel]
  · intro i hi
    rw [hlength] at hi
    rw [hpadding, String.toList_ofList, List.getElem?_append_left hi, List.getElem?_map,
      List.getElem?_eq_getElem hi]
    simp
  · rw [String.toList_ofList, hcolumn, Nat.add_sub_cancel, List.drop_left]
    exact List.prefix_append _ _

namespace CaretUnder

variable {d : Diagnostic} {source name line padding : String}

/-- The line that is shown is one line. -/
theorem count_line (h : d.CaretUnder source name line padding) :
    line.toList.count '\n' = 0 := by
  obtain ⟨-, -, -, -, -, hline, -⟩ := h.isLine
  exact List.count_eq_zero.mpr hline

theorem count_padding (h : d.CaretUnder source name line padding) :
    padding.toList.count '\n' = 0 := by
  refine List.count_eq_zero.mpr fun hmem => ?_
  obtain ⟨i, hi, hchar⟩ := List.mem_iff_getElem.mp hmem
  have hblank := h.blanks i (by rwa [String.length_toList] at hi)
  rw [List.getElem?_eq_getElem hi, hchar] at hblank
  split at hblank <;> exact absurd (Option.some.inj hblank) (by decide)

end CaretUnder

end Diagnostic

namespace Analyzer

variable {source : String} {config : Config} {found front behind : List Diagnostic}
  {d : Diagnostic}

/-- What is shown of a report that is on its own. -/
theorem exists_caretUnder (h : ((new config).check source).result = .ok found) (hd : d ∈ found)
    (hrule : d.rule = "hidden-field") :
    ∃ name line padding, d.IsReport name ∧ '\n' ∉ name.toList ∧
      d.CaretUnder source name line padding ∧
      ∀ fileName, report ⟨fileName, false⟩ source [d] =
        d.header ⟨fileName, false⟩ ++ "\n" ++ ("    " ++ line ++ "\n") ++
          ("    " ++ padding ++ "^" ++ "\n") := by
  obtain ⟨name, ls, hname, hls, hmem⟩ := exists_identifier h hd hrule
  obtain ⟨before, word, last, rest, htext, hword, hspan, hparts⟩ := exists_of_identifier hls hmem
  -- the characters of a name are parts of an identifier, so no line ends in it
  have hfeed : '\n' ∉ name.toList := fun h => absurd (hparts _ h) (by decide)
  have hreturn : '\r' ∉ name.toList := fun h => absurd (hparts _ h) (by decide)
  have hstart : d.span.start = .behind before := by rw [hspan]
  obtain ⟨lead, tail, hline, hcolumn⟩ :=
    exists_line_of_behind (by simp [hword]) hfeed hreturn before rest
  rw [← htext, ← hstart] at hline
  rw [← hstart] at hcolumn
  have hcaret := Diagnostic.caretUnder_of_isLine hline hcolumn
  exact ⟨name, _, _, hname, hfeed, hcaret, fun fileName =>
    Diagnostic.report_singleton fileName hcaret.isLine⟩

/-- Between what is shown of the other findings, a report about a name is shown with its header, the
line that the name stands in, and a caret under the first character of the name. These are three
lines, and one more for each line feed in the name of the file. -/
theorem report_caret (h : ((new config).check source).result = .ok found)
    (hfound : found = front ++ d :: behind) (hrule : d.rule = "hidden-field")
    (fileName : String) :
    ∃ name line padding shown, d.arguments = [name] ∧ d.CaretUnder source name line padding ∧
      shown = d.header ⟨fileName, false⟩ ++ "\n" ++ ("    " ++ line ++ "\n") ++
        ("    " ++ padding ++ "^" ++ "\n") ∧
      shown.toList.count '\n' = 3 + fileName.toList.count '\n' ∧
      report ⟨fileName, false⟩ source found =
        report ⟨fileName, false⟩ source front ++ shown ++
          report ⟨fileName, false⟩ source behind := by
  have hd : d ∈ found := by simp [hfound]
  obtain ⟨name, line, padding, hname, hfeed, hcaret, hreport⟩ := exists_caretUnder h hd hrule
  refine ⟨name, line, padding, _, hname.arguments, hcaret, rfl, ?_, ?_⟩
  · have hheader := hname.count_header hfeed fileName
    simp [hheader, hcaret.count_line, hcaret.count_padding, Nat.add_comm]
  · rw [hfound, report_append, ← List.singleton_append, report_append, hreport fileName,
      ← String.append_assoc]

/-- A class with a parameter that hides a field, on a line that begins inside a literal and has a
tab and a carriage return in it. -/
def unevenSource : String :=
  "class A \x7b int é;\r\n String s = \"\\\n\";\t\rvoid f(int é) \x7b\x7d \x7d"

/-- What is reported about `unevenSource`. -/
def unevenReport : Diagnostic :=
  ⟨"hidden-field", .error, "'é' hides a field.", ["é"], .at ⟨3, 16⟩⟩

/-- The report of this text. -/
theorem result_check_unevenSource :
    ((new {}).check unevenSource).result = .ok [unevenReport] :=
  eq_ok_of_toOption (by decide +kernel)

/-- The caret is under the name, whose letter has two bytes, behind a tab and a bare carriage return
on a line that begins inside a literal. -/
theorem report_caret_unevenSource :
    ∃ name line padding shown, unevenReport.arguments = [name] ∧
      unevenReport.CaretUnder unevenSource name line padding ∧
      shown = unevenReport.header ⟨"A.java", false⟩ ++ "\n" ++ ("    " ++ line ++ "\n") ++
        ("    " ++ padding ++ "^" ++ "\n") ∧
      shown.toList.count '\n' = 3 + "A.java".toList.count '\n' ∧
      report ⟨"A.java", false⟩ unevenSource [unevenReport] =
        report ⟨"A.java", false⟩ unevenSource [] ++ shown ++
          report ⟨"A.java", false⟩ unevenSource [] :=
  report_caret result_check_unevenSource (List.nil_append _).symm rfl "A.java"

/-- A line feed in the name of the file makes a fourth line. -/
theorem count_report_lineFeedName :
    ¬ ∀ (config : Config) (source fileName : String) (found : List Diagnostic),
      ((new config).check source).result = .ok found → ∀ d ∈ found, d.rule = "hidden-field" →
        (report ⟨fileName, false⟩ source [d]).toList.count '\n' = 3 := by
  intro h
  have hthree := h {} unevenSource "A\n.java" [unevenReport] result_check_unevenSource
    unevenReport (List.mem_singleton.mpr rfl) rfl
  exact absurd hthree (by decide +kernel)

end Analyzer

end FieldShadow
