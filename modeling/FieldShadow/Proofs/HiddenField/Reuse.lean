import FieldShadow.Proofs.Grammar.Conformance
import FieldShadow.Proofs.HiddenField.Shadowing

/-!
# One analyzer for many texts

An analyzer keeps nothing of a text that it has checked (`Analyzer.analyzer_check`), so a row of
checks gives what as many new analyzers give (`Analyzer.checkAll_new`). The scope stack lives on
between checks; it is as it was because a walk takes off every frame that it puts on, and texts that
cannot be read are not walked at all.
-/

namespace FieldShadow.Analyzer

open SyntaxTree Outcome

/-- A run that goes well leaves the rules where it led them. -/
theorem analyzer_eq_of_finds {a : Analyzer} {t : SyntaxTree} {found : List Diagnostic}
    {rules : List HiddenFieldRule}
    (h : (runAll (dispatch a.config t) (begin a.config a.registry.rules) t.events).Finds found
      rules) : (a.analyze t).analyzer = ⟨a.config, ⟨rules⟩⟩ := by
  unfold analyze
  simp only [h.failure_eq, h.state_eq]

/-- A walk ends with the scope stack that it began with. -/
theorem analyzer_analyze {t : SyntaxTree} (ht : t.Linked) (config : Config) :
    ((new config).analyze t).analyzer = new config :=
  analyzer_eq_of_finds (finds_new ht config)

/-- A check leaves an analyzer as it was, whatever it gives. -/
theorem analyzer_check (config : Config) (source : String) :
    ((new config).check source).analyzer = new config := by
  unfold check
  split
  · rfl
  · split
    · rfl
    · next t ht => exact analyzer_analyze (Parser.conforms_of_next ht).1.linked config

/-- Texts that are checked one after the other by one analyzer are checked as each would be by a new
one, those that cannot be read included. After each the analyzer has the rules and the configuration
that it had before. -/
theorem checkAll_new (config : Config) (sources : List String) :
    (new config).checkAll sources = sources.map (new config).check ∧
      ∀ checked ∈ (new config).checkAll sources,
        checked.analyzer.listRules = (new config).listRules ∧
        checked.analyzer.config = config := by
  have hall : (new config).checkAll sources = sources.map (new config).check := by
    induction sources with
    | nil => rfl
    | cons source sources ih => rw [checkAll, analyzer_check, ih, List.map_cons]
  refine ⟨hall, fun checked hchecked => ?_⟩
  rw [hall] at hchecked
  obtain ⟨source, -, rfl⟩ := List.mem_map.mp hchecked
  rw [analyzer_check]
  exact ⟨rfl, rfl⟩

end FieldShadow.Analyzer
