import FieldShadow.Diagnostic.Limit

/-!
# The errors that are kept

Of more errors than the limit allows the first are kept and nothing else is left out
(`Config.postProcess_keeps_first`). What the errors of a report are depends on the errors of the
findings only: they are as many of these as the limit allows, from the front
(`Config.errors_postProcess`). So a report that is cut again stays as it is, and a higher limit
adds errors at the end.
-/

namespace FieldShadow

/-- The errors among some findings. -/
def errors (found : List Diagnostic) : List Diagnostic :=
  found.filter Diagnostic.isError

/-- The findings that are no errors. -/
def remarks (found : List Diagnostic) : List Diagnostic :=
  found.filter fun d => !d.isError

/-- A finding as it counts: a warning is an error if the configuration says so. -/
def Config.grade (c : Config) (d : Diagnostic) : Diagnostic :=
  if c.warningAsError ∧ d.severity = .warning then { d with severity := .error } else d

/-- The count of errors is the length of their list. -/
theorem errorCount_eq (found : List Diagnostic) : errorCount found = (errors found).length :=
  List.countP_eq_length_filter

/-- The errors of two rows are those of both. -/
theorem errors_append (found found' : List Diagnostic) :
    errors (found ++ found') = errors found ++ errors found' :=
  List.filter_append _ _

/-! ## Dropping errors -/

/-- What is kept is a part of what was found, in the same order. -/
theorem keepErrors_sublist (limit : Nat) (found : List Diagnostic) :
    (keepErrors limit found).Sublist found := by
  fun_induction keepErrors limit found with
  | case1 => exact .slnil
  | case2 limit d ds _ ih => exact ih.cons_cons d
  | case3 d ds _ ih => exact ih.cons d
  | case4 d ds _ limit ih => exact ih.cons_cons d

/-- The errors that are kept are the first ones. -/
theorem errors_keepErrors (limit : Nat) (found : List Diagnostic) :
    errors (keepErrors limit found) = (errors found).take limit := by
  fun_induction keepErrors limit found <;> simp_all [errors]

/-- If no errors are allowed, what is kept are the remarks. -/
theorem keepErrors_zero (found : List Diagnostic) : keepErrors 0 found = remarks found := by
  induction found with
  | nil => rfl
  | cons d ds ih => cases hd : d.isError <;> simpa [keepErrors, remarks, hd] using ih

/-- Of enough findings all are kept up to the last error that is allowed, and behind it the
remarks. -/
theorem exists_keepErrors_eq {limit : Nat} {found : List Diagnostic}
    (h : limit ≤ errorCount found) :
    ∃ front back, found = front ++ back ∧ errorCount front = limit ∧
      keepErrors limit found = front ++ remarks back := by
  induction found generalizing limit with
  | nil =>
    obtain rfl : limit = 0 := Nat.le_zero.mp h
    exact ⟨[], [], rfl, rfl, rfl⟩
  | cons d ds ih =>
    cases hd : d.isError with
    | false =>
      obtain ⟨front, back, rfl, hfront, hkept⟩ := ih (by simpa [errorCount, hd] using h)
      refine ⟨d :: front, back, rfl, by simpa [errorCount, hd] using hfront, ?_⟩
      simp [keepErrors, hd, hkept]
    | true =>
      -- an error uses up one of the limit, at zero everything behind is cut
      cases limit with
      | zero => exact ⟨[], d :: ds, rfl, rfl, keepErrors_zero _⟩
      | succ limit =>
        have hle : limit ≤ errorCount ds := by simpa [errorCount, hd] using h
        obtain ⟨front, back, rfl, hfront, hkept⟩ := ih hle
        refine ⟨d :: front, back, rfl, by simpa [errorCount, hd] using hfront, ?_⟩
        simp [keepErrors, hd, hkept]

namespace Config

variable {c : Config} {found : List Diagnostic}

/-! ## Grading -/

/-- Grading goes finding by finding. -/
theorem regrade_eq_map (c : Config) (found : List Diagnostic) :
    c.regrade found = found.map c.grade := by
  unfold regrade
  split
  · next hgrade =>
    refine List.map_congr_left fun d _ => ?_
    simp [grade, hgrade, Diagnostic.promoted]
  · next hgrade =>
    have hid : c.grade = id := by
      funext d
      simp [grade, hgrade]
    rw [hid, List.map_id]

/-- A graded finding is no warning that counts as an error. -/
theorem grade_grade (c : Config) (d : Diagnostic) : c.grade (c.grade d) = c.grade d := by
  by_cases h : c.warningAsError ∧ d.severity = .warning <;> simp [grade, h]

/-- What was graded is not graded any further. -/
theorem grade_of_mem_regrade {d : Diagnostic} (h : d ∈ c.regrade found) : c.grade d = d := by
  rw [regrade_eq_map] at h
  obtain ⟨d', -, rfl⟩ := List.mem_map.mp h
  exact c.grade_grade d'

theorem regrade_eq_self (h : ∀ d ∈ found, c.grade d = d) : c.regrade found = found := by
  rw [regrade_eq_map, List.map_congr_left h, List.map_id']

/-! ## What is reported -/

/-- Without a limit everything is reported. -/
theorem postProcess_of_no_limit (h : c.errorLimit? = none) :
    c.postProcess found = c.regrade found := by
  simp only [postProcess, h]

/-- With as few errors as the limit allows everything is reported. -/
theorem postProcess_of_le {limit : Nat} (h : c.errorLimit? = some limit)
    (hcount : errorCount (c.regrade found) ≤ limit) :
    c.postProcess found = c.regrade found := by
  simp only [postProcess, h, if_pos hcount]

/-- With more errors the first ones are kept, and a note gives both numbers. -/
theorem postProcess_of_lt {limit : Nat} (h : c.errorLimit? = some limit)
    (hcount : limit < errorCount (c.regrade found)) :
    c.postProcess found = keepErrors limit (c.regrade found) ++
      [limitNote (errorCount (c.regrade found)) limit] := by
  simp only [postProcess, h, if_neg (Nat.not_le.mpr hcount)]

/-- The errors of a report are the first of those that were found, as many as the limit allows. -/
theorem errors_postProcess {limit : Nat} (h : c.errorLimit? = some limit) :
    errors (c.postProcess found) = (errors (c.regrade found)).take limit := by
  by_cases hcount : errorCount (c.regrade found) ≤ limit
  · rw [postProcess_of_le h hcount, List.take_of_length_le (errorCount_eq _ ▸ hcount)]
  · rw [postProcess_of_lt h (Nat.not_le.mp hcount), errors_append, errors_keepErrors]
    exact List.append_nil _

/-- What is reported was found, or it is the note about the limit. -/
theorem mem_regrade_or_limitNote {d : Diagnostic} (h : d ∈ c.postProcess found) :
    d ∈ c.regrade found ∨ ∃ count limit, d = limitNote count limit := by
  cases hlimit : c.errorLimit? with
  | none => exact .inl (postProcess_of_no_limit hlimit ▸ h)
  | some limit =>
    by_cases hcount : errorCount (c.regrade found) ≤ limit
    · exact .inl (postProcess_of_le hlimit hcount ▸ h)
    · rw [postProcess_of_lt hlimit (Nat.not_le.mp hcount)] at h
      rcases List.mem_append.mp h with hkept | hnote
      · exact .inl ((keepErrors_sublist _ _).subset hkept)
      · exact .inr ⟨_, _, List.mem_singleton.mp hnote⟩

/-- What is reported is graded. -/
theorem grade_of_mem_postProcess {d : Diagnostic} (h : d ∈ c.postProcess found) :
    c.grade d = d := by
  rcases mem_regrade_or_limitNote h with hfound | ⟨count, limit, rfl⟩
  · exact grade_of_mem_regrade hfound
  · simp [grade, limitNote]

/-- A report stays as it is when it is graded and cut once more: there are no warnings left that
count as errors, and no more errors than the limit allows. -/
theorem postProcess_postProcess (c : Config) (found : List Diagnostic) :
    c.postProcess (c.postProcess found) = c.postProcess found := by
  have hgraded : c.regrade (c.postProcess found) = c.postProcess found :=
    regrade_eq_self fun d hd => grade_of_mem_postProcess hd
  cases hlimit : c.errorLimit? with
  | none => rw [postProcess_of_no_limit hlimit, hgraded]
  | some limit =>
    have hcount : errorCount (c.regrade (c.postProcess found)) ≤ limit := by
      rw [hgraded, errorCount_eq, errors_postProcess hlimit]
      exact List.length_take_le _ _
    rw [postProcess_of_le hlimit hcount, hgraded]

/-- Findings are graded, and if there are not more errors than the limit allows, all of them are
reported. Otherwise those behind the last error that is allowed lose their errors, and a note of the
two numbers comes last. So a report has as many errors as were found, but not more than the limit; a
second time nothing changes; and the errors under a lower limit are the first of those under a
higher one. -/
theorem postProcess_keeps_first (c : Config) (found : List Diagnostic) :
    (c.errorLimit? = none → c.postProcess found = found.map c.grade) ∧
      (∀ limit, c.errorLimit? = some limit →
        (errorCount (found.map c.grade) ≤ limit → c.postProcess found = found.map c.grade) ∧
        (limit < errorCount (found.map c.grade) → ∃ front back note,
          found.map c.grade = front ++ back ∧ errorCount front = limit ∧
          c.postProcess found = front ++ remarks back ++ [note] ∧
          note.rule = "error-limit" ∧ note.severity = .info ∧
          note.arguments = [toString (errorCount (found.map c.grade)), toString limit]) ∧
        errorCount (c.postProcess found) = min (errorCount (found.map c.grade)) limit) ∧
      c.postProcess (c.postProcess found) = c.postProcess found ∧
      ∀ limit limit', limit ≤ limit' →
        errors ({ c with errorLimit? := some limit }.postProcess found) <+:
          errors ({ c with errorLimit? := some limit' }.postProcess found) := by
  rw [← regrade_eq_map]
  refine ⟨postProcess_of_no_limit, fun limit hlimit => ⟨postProcess_of_le hlimit, ?_, ?_⟩,
    postProcess_postProcess c found, fun limit limit' hle => ?_⟩
  · intro hcount
    obtain ⟨front, back, hfound, hfront, hkept⟩ := exists_keepErrors_eq (Nat.le_of_lt hcount)
    refine ⟨front, back, limitNote (errorCount (c.regrade found)) limit, hfound, hfront, ?_, rfl,
      rfl, rfl⟩
    rw [postProcess_of_lt hlimit hcount, hkept]
  · rw [errorCount_eq, errorCount_eq, errors_postProcess hlimit, List.length_take, Nat.min_comm]
  · -- what is kept of the errors is a beginning of them, so a greater limit keeps a longer one
    rw [errors_postProcess rfl, errors_postProcess rfl]
    exact List.take_prefix_take_left hle

/-- A warning, an error, an information and another error. -/
def mixedFindings : List Diagnostic :=
  [⟨"a", .warning, "w", [], .at ⟨1, 1⟩⟩, ⟨"a", .error, "e", [], .at ⟨2, 1⟩⟩,
    ⟨"b", .info, "i", [], .at ⟨3, 1⟩⟩, ⟨"b", .error, "f", [], .at ⟨4, 1⟩⟩]

/-- With warnings as errors three errors are over the limit of two, and the information behind the
second stays. -/
theorem postProcess_keeps_first_mixedFindings :
    ∃ front back note,
      mixedFindings.map (grade { warningAsError := true }) = front ++ back ∧
      errorCount front = 2 ∧
      Config.postProcess { warningAsError := true, errorLimit? := some 2 } mixedFindings =
        front ++ remarks back ++ [note] ∧
      note.rule = "error-limit" ∧ note.severity = .info ∧ note.arguments = ["3", "2"] :=
  ((postProcess_keeps_first { warningAsError := true, errorLimit? := some 2 } mixedFindings).2.1 2
    rfl).2.1 (by decide)

end Config

end FieldShadow
