import FieldShadow.Proofs.HiddenField.Order

/-!
# Relaxed settings

Settings that let more declarations pass, or look at fewer kinds of them, take reports away and
leave the others as they are and in their order (`Analyzer.check_relaxed`). Whether a node is
reported is asked of that node alone, and more exemptions or fewer kinds only ever turn the answer
to no. The reports about variables and those about parameters are apart and add up to all.

More relaxed settings are compared property by property (`Settings.Relaxes`). An exemption that held
holds under the more relaxed ones (`IsExempt.of_relaxes`), which is where the pattern comes in: it
may be added where there was none, but not replaced, as nothing is known of which names two patterns
have in common.
-/

namespace FieldShadow

/-- Settings that let pass whatever others do, look at no other kinds of declarations, and report
with the same severity. -/
structure Settings.Relaxes (s' s : Settings) : Prop where
  format : s.ignoreFormat? = none ∨ s'.ignoreFormat? = s.ignoreFormat?
  setter : s.ignoreSetter → s'.ignoreSetter
  setterType : s.ignoreSetter → s.setterCanReturnItsClass → s'.setterCanReturnItsClass
  constructor : s.ignoreConstructorParameter → s'.ignoreConstructorParameter
  abstractMethod : s.ignoreAbstractMethods → s'.ignoreAbstractMethods
  kinds : ∀ kind, s'.kinds.includes kind → s.kinds.includes kind
  severity : s'.severity = s.severity

/-- The settings with other kinds of declarations to look at. -/
def Settings.only (s : Settings) (kinds : DeclarationKinds) : Settings :=
  { s with kinds }

@[simp] theorem Settings.severity_only (s : Settings) (kinds : DeclarationKinds) :
    (s.only kinds).severity = s.severity :=
  rfl

@[simp] theorem Settings.kinds_only (s : Settings) (kinds : DeclarationKinds) :
    (s.only kinds).kinds = kinds :=
  rfl

/-- Whether a finding starts at another one or in front of it. -/
def Diagnostic.startsUpTo (d d' : Diagnostic) : Bool :=
  d.span.start ≤ d'.span.start

/-! ## Rows of findings -/

/-- Findings of which some are left out. -/
theorem filterMap_sublist_filterMap {α β : Type} {f g : α → Option β}
    (h : ∀ a b, f a = some b → g a = some b) (l : List α) :
    (l.filterMap f).Sublist (l.filterMap g) := by
  induction l with
  | nil => exact .slnil
  | cons a l ih =>
    rw [List.filterMap_cons, List.filterMap_cons]
    cases hf : f a with
    | some b =>
      rw [h a b hf]
      exact ih.cons_cons b
    | none =>
      cases g a with
      | none => exact ih
      | some b => exact ih.cons b

/-- Findings in order are those of one kind and those of the other, merged. -/
theorem merge_filterMap {α : Type} {f g all : α → Option Diagnostic}
    (hone : ∀ a, (f a = all a ∧ g a = none) ∨ (g a = all a ∧ f a = none)) {l : List α}
    (hsorted : (l.filterMap all).Pairwise fun d d' => d.span.start < d'.span.start) :
    (l.filterMap f).merge (l.filterMap g) Diagnostic.startsUpTo = l.filterMap all := by
  induction l with
  | nil => exact List.nil_merge _
  | cons a l ih =>
    cases hall : all a with
    | none =>
      have hf : f a = none := by rcases hone a with ⟨h, -⟩ | ⟨-, h⟩ <;> simp [h, hall]
      have hg : g a = none := by rcases hone a with ⟨-, h⟩ | ⟨h, -⟩ <;> simp [h, hall]
      rw [List.filterMap_cons_none hall] at hsorted ⊢
      rw [List.filterMap_cons_none hf, List.filterMap_cons_none hg, ih hsorted]
    | some d =>
      rw [List.filterMap_cons_some hall] at hsorted ⊢
      obtain ⟨hfirst, hsorted⟩ := List.pairwise_cons.mp hsorted
      have ih := ih hsorted
      -- what is behind the first finding starts behind it, whichever kind it is of
      have hlt {d' : Diagnostic} (hd' : d' ∈ l.filterMap f ∨ d' ∈ l.filterMap g) :
          d.span.start < d'.span.start := hfirst d' (ih ▸ List.mem_merge.mpr hd')
      rcases hone a with ⟨hf, hg⟩ | ⟨hg, hf⟩
      · rw [List.filterMap_cons_some (hf.trans hall), List.filterMap_cons_none hg]
        cases hrest : l.filterMap g with
        | nil => rw [List.merge_right, ← ih, hrest, List.merge_right]
        | cons d' ds =>
          have hle := Position.le_of_lt (hlt (.inr (hrest ▸ List.mem_cons_self)))
          rw [List.cons_merge_cons_pos _ _ _ (decide_eq_true hle), ← hrest, ih]
      · rw [List.filterMap_cons_some (hg.trans hall), List.filterMap_cons_none hf]
        cases hrest : l.filterMap f with
        | nil => rw [List.nil_merge, ← ih, hrest, List.nil_merge]
        | cons d' ds =>
          have hnot := Position.not_le_of_lt (hlt (.inl (hrest ▸ List.mem_cons_self)))
          rw [List.cons_merge_cons_neg _ _ _ (by simpa [Diagnostic.startsUpTo] using hnot),
            ← hrest, ih]

/-- Findings that are merged to a strictly ordered row start at different places. -/
theorem start_ne_of_pairwise_merge {found found' : List Diagnostic}
    (h : (found.merge found' Diagnostic.startsUpTo).Pairwise
      fun d d' => d.span.start < d'.span.start) :
    ∀ d ∈ found, ∀ d' ∈ found', d.span.start ≠ d'.span.start := by
  have hne : (found.merge found' Diagnostic.startsUpTo).Pairwise
      fun d d' => d.span.start ≠ d'.span.start := by
    refine h.imp fun {d d'} hlt => ?_
    intro heq
    rw [heq] at hlt
    exact Position.not_le_of_lt hlt (Position.le_refl _)
  rw [(List.merge_perm_append _).pairwise_iff Ne.symm] at hne
  exact (List.pairwise_append.mp hne).2.2

/-! ## One declaration -/

namespace SyntaxTree

variable {t : SyntaxTree} {s s' : Settings} {node : Nat} {name : String} {kind : DeclarationKind}

/-- What is let pass still is. -/
theorem IsExempt.of_relaxes (h : s'.Relaxes s) (hexempt : t.IsExempt s node name kind) :
    t.IsExempt s' node name kind := by
  cases hexempt with
  | format pattern occurs =>
    rcases h.format with hnone | hsame
    · exact nomatch hnone.symm.trans pattern
    · exact .format (hsame.trans pattern) occurs
  | setter on inList only gives =>
    exact .setter (h.setter on) inList only
      (gives.imp_right fun ⟨allowed, own⟩ => ⟨h.setterType on allowed, own⟩)
  | constructor on inList => exact .constructor (h.constructor on) inList
  | abstractMethod on inList isAbstract =>
    exact .abstractMethod (h.abstractMethod on) inList isAbstract

/-- The kinds that are looked at do not count among the reasons to let a declaration pass. -/
theorem isExempt_only {kinds : DeclarationKinds} :
    t.IsExempt (s.only kinds) node name kind ↔ t.IsExempt s node name kind := by
  constructor
  all_goals
    intro h
    cases h with
    | format pattern occurs => exact .format pattern occurs
    | setter on inList only gives => exact .setter on inList only gives
    | constructor on inList => exact .constructor on inList
    | abstractMethod on inList isAbstract => exact .abstractMethod on inList isAbstract

/-- What shadows under relaxed settings shadows under the others, condition by condition. -/
theorem Shadows.of_relaxes (h : s'.Relaxes s) (hshadows : t.Shadows s' node name kind) :
    t.Shadows s node name kind where
  enabled := h.kinds kind hshadows.enabled
  outside := hshadows.outside
  isLocal := hshadows.isLocal
  hides := hshadows.hides
  counts := fun hexempt => hshadows.counts (hexempt.of_relaxes h)

/-- Under settings for some kinds a declaration shadows if its kind is among them and it would
shadow with all kinds. -/
theorem shadows_only {kinds : DeclarationKinds} :
    t.Shadows (s.only kinds) node name kind ↔
      kinds.includes kind ∧ t.Shadows (s.only ⟨true, true⟩) node name kind := by
  simp only [shadows_iff, isExempt_only]
  cases kind <;> simp [DeclarationKinds.includes]

/-- What is reported under relaxed settings is reported anyway. -/
theorem shadowing?_of_relaxes (h : s'.Relaxes s) {d : Diagnostic}
    (hd : t.shadowing? s' node = some d) : t.shadowing? s node = some d := by
  obtain ⟨n, name, kind, hn, hdeclares, hshadows, rfl⟩ := shadowing?_eq_some.mp hd
  rw [h.severity]
  exact shadowing?_eq_some.mpr ⟨n, name, kind, hn, hdeclares, hshadows.of_relaxes h, rfl⟩

/-- A declaration is reported by whether it shadows. -/
theorem shadowing?_of_declares {n : Node} (hn : t.node? node = some n)
    (hdeclares : n.kind.declares? = some (name, kind)) (s : Settings) :
    t.shadowing? s node =
      if t.Shadows s node name kind then
        some ⟨"hidden-field", s.severity, "'" ++ name ++ "' hides a field.", [name], n.span⟩
      else none := by
  rw [shadowing?, hn, Option.bind_eq_bind, Option.bind_some, hdeclares, Option.bind_eq_bind,
    Option.bind_some]
  by_cases h : t.Shadows s node name kind
  · rw [if_pos h]
    exact congrArg (Option.bind · _) (if_pos h)
  · rw [if_neg h]
    exact congrArg (Option.bind · _) (if_neg h)

/-- A declaration is reported if its kind is looked at. -/
theorem shadowing?_only {n : Node} (hn : t.node? node = some n)
    (hdeclares : n.kind.declares? = some (name, kind)) (s : Settings) (kinds : DeclarationKinds) :
    t.shadowing? (s.only kinds) node =
      if kinds.includes kind then t.shadowing? (s.only ⟨true, true⟩) node else none := by
  have hiff := @shadows_only t s node name kind kinds
  rw [shadowing?_of_declares hn hdeclares, shadowing?_of_declares hn hdeclares]
  by_cases h : kinds.includes kind <;> simp [hiff, h]

/-- What declares nothing is never reported. -/
theorem shadowing?_of_not_declares (h : (t.kind? node).bind NodeKind.declares? = none)
    (s : Settings) : t.shadowing? s node = none := by
  refine shadowing?_eq_none_of_not fun n name kind hn hdeclares => ?_
  simp [kind?, hn, hdeclares] at h

/-- A node is reported as what it declares, and not as anything else. -/
theorem shadowing?_eq_one (t : SyntaxTree) (s : Settings) (node : Nat) :
    (t.shadowing? (s.only ⟨true, false⟩) node = t.shadowing? (s.only ⟨true, true⟩) node ∧
        t.shadowing? (s.only ⟨false, true⟩) node = none) ∨
      (t.shadowing? (s.only ⟨false, true⟩) node = t.shadowing? (s.only ⟨true, true⟩) node ∧
        t.shadowing? (s.only ⟨true, false⟩) node = none) := by
  cases h : (t.kind? node).bind NodeKind.declares? with
  | none =>
    refine .inl ⟨?_, shadowing?_of_not_declares h _⟩
    rw [shadowing?_of_not_declares h, shadowing?_of_not_declares h]
  | some declared =>
    obtain ⟨name, kind⟩ := declared
    obtain ⟨_, hkind, hdeclares⟩ := Option.bind_eq_some_iff.mp h
    obtain ⟨n, hn, rfl⟩ := Option.map_eq_some_iff.mp hkind
    rw [shadowing?_only hn hdeclares s ⟨true, false⟩,
      shadowing?_only hn hdeclares s ⟨false, true⟩]
    -- a name is that of a parameter or of a local, so one of the two settings passes it over
    cases kind
    · exact .inl ⟨rfl, rfl⟩
    · exact .inr ⟨rfl, rfl⟩

/-- Relaxed settings report a part of a tree's reports, in the same order. -/
theorem shadowings_sublist (h : s'.Relaxes s) (t : SyntaxTree) :
    (t.shadowings s').Sublist (t.shadowings s) :=
  filterMap_sublist_filterMap (fun _ _ => shadowing?_of_relaxes h) _

end SyntaxTree

/-! ## Whole checks -/

/-- The configuration with other settings of the rule. -/
def Config.withSettings (config : Config) (s : Settings) : Config :=
  { config with hiddenField := s }

namespace Analyzer

variable {config : Config} {source : String} {s s' : Settings} {os : List Outline}

/-- Whether a text is accepted does not depend on the configuration. -/
theorem exists_reading (source : String) : ∃ read : Except LintError (List Outline),
    ∀ config, ((new config).check source).result =
      read.map fun os => config.postProcess (findings config os) := by
  cases hls : tokenize source with
  | error e => exact ⟨.error (.lexical e), fun config => by simp [check, hls, Except.map]⟩
  | ok ls =>
    cases hos : (Cursor.ofLexemes ls).outlines with
    | error e => exact ⟨.error (.unparsable (.grammar e)), fun _ => result_check_of_error hls hos⟩
    | ok os => exact ⟨.ok os, fun config => result_check_of_outlines config hls hos⟩

/-- What is reported about some declarations if there is no limit. -/
def graded (config : Config) (s : Settings) (os : List Outline) : List Diagnostic :=
  (findings (config.withSettings s) os).map config.grade

/-- What a check gives under other settings of the rule. -/
def resultUnder (config : Config) (source : String) (s : Settings) :
    Except LintError (List Diagnostic) :=
  ((new (config.withSettings s)).check source).result

/-- Without a limit a text is rejected whatever the settings are, or its findings are reported. -/
theorem check_of_no_limit (hlimit : config.errorLimit? = none) (source : String) :
    (∃ e, ∀ s, resultUnder config source s = .error e) ∨
      ∃ os, ∀ s, resultUnder config source s = .ok (graded config s os) := by
  obtain ⟨read, hread⟩ := exists_reading source
  cases read with
  | error e => exact .inl ⟨e, fun s => hread _⟩
  | ok os =>
    refine .inr ⟨os, fun s => ?_⟩
    have hnone : (config.withSettings s).errorLimit? = none := hlimit
    rw [resultUnder, hread, Except.map, Config.postProcess_of_no_limit hnone,
      Config.regrade_eq_map]
    rfl

/-- Grading keeps this, since it goes report by report. -/
theorem findings_sublist (h : s'.Relaxes s) (config : Config) (os : List Outline) :
    (findings (config.withSettings s') os).Sublist (findings (config.withSettings s) os) := by
  by_cases hoff : HiddenFieldRule.id ∈ config.disabledRules
  · simp [findings, Config.withSettings, hoff]
  · simpa [findings, Config.withSettings, hoff] using SyntaxTree.shadowings_sublist h _

/-- The setting about setters that return their class counts only together with that about
setters. -/
theorem relaxes_setterType (hsetter : s.ignoreSetter = false) (b b' : Bool) :
    { s with setterCanReturnItsClass := b }.Relaxes { s with setterCanReturnItsClass := b' } where
  format := .inr rfl
  setter := id
  setterType := by simp [hsetter]
  constructor := id
  abstractMethod := id
  kinds := fun _ => id
  severity := rfl

/-- The findings about a row of declarations, in order, are those about variables and those about
parameters. -/
theorem merge_graded
    (hsorted : (graded config (s.only ⟨true, true⟩) os).Pairwise
      fun d d' => d.span.start < d'.span.start) :
    (graded config (s.only ⟨true, false⟩) os).merge (graded config (s.only ⟨false, true⟩) os)
      Diagnostic.startsUpTo = graded config (s.only ⟨true, true⟩) os := by
  by_cases hoff : HiddenFieldRule.id ∈ config.disabledRules
  · simp [graded, findings, Config.withSettings, hoff]
  · have hgraded (s : Settings) : graded config s os =
        ((SyntaxTree.ofOutlines os).preorder SyntaxTree.root).filterMap
          fun node => ((SyntaxTree.ofOutlines os).shadowing? s node).map config.grade := by
      simp [graded, findings, Config.withSettings, hoff, SyntaxTree.shadowings, List.map_filterMap]
    simp only [hgraded] at hsorted ⊢
    refine merge_filterMap (fun node => ?_) hsorted
    rcases (SyntaxTree.ofOutlines os).shadowing?_eq_one s node with ⟨h, hnone⟩ | ⟨h, hnone⟩
    · exact .inl ⟨congrArg _ h, by rw [hnone]; rfl⟩
    · exact .inr ⟨congrArg _ h, by rw [hnone]; rfl⟩

/-- The reports of a text start strictly one behind the other, which is what merging them needs. -/
theorem pairwise_graded (h : resultUnder config source s = .ok (graded config s os)) :
    (graded config s os).Pairwise fun d d' => d.span.start < d'.span.start := by
  have hsorted := pairwise_start_reports h
  rwa [List.filter_eq_self.mpr] at hsorted
  intro d hd
  have hregraded : d ∈ (config.withSettings s).regrade (findings (config.withSettings s) os) := by
    rw [Config.regrade_eq_map]
    exact hd
  obtain ⟨name, hname⟩ := Config.isReport_of_mem_regrade isReport_of_mem_findings d hregraded
  exact decide_eq_true hname.rule

/-- Settings that relax each other give the same result. -/
theorem resultUnder_congr (h : s'.Relaxes s) (h' : s.Relaxes s') (config : Config)
    (source : String) : resultUnder config source s' = resultUnder config source s := by
  obtain ⟨read, hread⟩ := exists_reading source
  have hfindings (os : List Outline) :
      findings (config.withSettings s') os = findings (config.withSettings s) os :=
    (findings_sublist h config os).antisymm (findings_sublist h' config os)
  rw [resultUnder, resultUnder, hread, hread]
  simp only [hfindings]
  rfl

/-- If there is no limit, relaxed settings accept the same texts and take reports away only, and the
reports about variables and those about parameters start at different places and are all reports
when they are merged by place. The setting about setters that return their class has no effect while
setters are not let pass. -/
theorem check_relaxed (config : Config) (source : String) :
    (config.errorLimit? = none → ∀ s s' found, s'.Relaxes s →
      resultUnder config source s = .ok found →
      ∃ found', resultUnder config source s' = .ok found' ∧ found'.Sublist found) ∧
    (config.errorLimit? = none → ∀ s : Settings,
      (∃ e, ∀ kinds, resultUnder config source (s.only kinds) = .error e) ∨
      ∃ locals parameters,
        resultUnder config source (s.only ⟨true, false⟩) = .ok locals ∧
        resultUnder config source (s.only ⟨false, true⟩) = .ok parameters ∧
        (∀ d ∈ locals, ∀ d' ∈ parameters, d.span.start ≠ d'.span.start) ∧
        resultUnder config source (s.only ⟨true, true⟩) =
          .ok (locals.merge parameters Diagnostic.startsUpTo)) ∧
    ∀ (s : Settings) (b : Bool), s.ignoreSetter = false →
      resultUnder config source { s with setterCanReturnItsClass := b } =
        resultUnder config source s := by
  refine ⟨fun hlimit s s' found hrelaxes h => ?_, fun hlimit s => ?_, fun s b hsetter => ?_⟩
  · rcases check_of_no_limit hlimit source with ⟨e, hread⟩ | ⟨os, hread⟩
    · rw [hread] at h
      cases h
    · rw [hread, Except.ok.injEq] at h
      refine ⟨graded config s' os, hread s', ?_⟩
      rw [← h]
      exact (findings_sublist hrelaxes config os).map _
  · rcases check_of_no_limit hlimit source with ⟨e, hread⟩ | ⟨os, hread⟩
    · exact .inl ⟨e, fun kinds => hread _⟩
    · have hsorted := pairwise_graded (hread (s.only ⟨true, true⟩))
      have hmerge := merge_graded hsorted
      -- findings are ordered by where they start, so the two lists merge in one way only
      refine .inr ⟨_, _, hread _, hread _, ?_, by rw [hread, hmerge]⟩
      rw [← hmerge] at hsorted
      exact start_ne_of_pairwise_merge hsorted
  · exact resultUnder_congr (relaxes_setterType hsetter b s.setterCanReturnItsClass)
      (relaxes_setterType hsetter s.setterCanReturnItsClass b) config source

/-- A class with a constructor and a setter, which have parameters of the names of fields. -/
def mixedSource : String :=
  "class A \x7b int x, y;\n  A(int x) \x7b int y; \x7d\n  void setX(int x) \x7b\x7d \x7d"

/-- What is reported about `mixedSource` if nothing is let pass. -/
def mixedReports : List Diagnostic :=
  [⟨"hidden-field", .error, "'x' hides a field.", ["x"], .at ⟨2, 9⟩⟩,
    ⟨"hidden-field", .error, "'y' hides a field.", ["y"], .at ⟨2, 18⟩⟩,
    ⟨"hidden-field", .error, "'x' hides a field.", ["x"], .at ⟨3, 17⟩⟩]

/-- Parameters only, and not those of setters. -/
def relaxedSettings : Settings :=
  { ignoreSetter := true, kinds := ⟨false, true⟩ }

/-- These settings relax the standard ones. -/
theorem relaxedSettings_relaxes : relaxedSettings.Relaxes {} where
  format := .inl rfl
  setter := nofun
  setterType := nofun
  constructor := nofun
  abstractMethod := nofun
  kinds := by rintro ⟨⟩ <;> decide
  severity := rfl

/-- With relaxed settings a part of the reports is left, and those of variables and of parameters
make up all. -/
theorem check_relaxed_mixedSource :
    (∃ found, resultUnder {} mixedSource relaxedSettings = .ok found ∧
        found.Sublist mixedReports) ∧
      ∃ locals parameters,
        resultUnder {} mixedSource { kinds := ⟨true, false⟩ } = .ok locals ∧
        resultUnder {} mixedSource { kinds := ⟨false, true⟩ } = .ok parameters ∧
        (∀ d ∈ locals, ∀ d' ∈ parameters, d.span.start ≠ d'.span.start) ∧
        resultUnder {} mixedSource {} = .ok (locals.merge parameters Diagnostic.startsUpTo) := by
  have hcheck : resultUnder {} mixedSource {} = .ok mixedReports :=
    eq_ok_of_toOption (by decide +kernel)
  obtain ⟨hrelaxed, honly, -⟩ := check_relaxed {} mixedSource
  refine ⟨hrelaxed rfl {} _ _ relaxedSettings_relaxes hcheck, (honly rfl {}).resolve_left ?_⟩
  rintro ⟨e, herror⟩
  exact nomatch hcheck.symm.trans (herror ⟨true, true⟩)

end Analyzer

end FieldShadow
