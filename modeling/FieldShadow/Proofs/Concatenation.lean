import FieldShadow.Proofs.Grammar.Extension.Declaration
import FieldShadow.Proofs.HiddenField.Embedding
import FieldShadow.Proofs.Token.Joined

/-!
# Compilation units behind each other

A check of two compilation units behind each other gives what the checks of the two give
(`Analyzer.check_append`). Lexer, grammar and rule each keep to the unit they are in: the tokens of
the second text begin after the line feed, no reader of declarations looks past a closing brace, and
the root is no type that has fields.

There is one exception. The arguments of annotations are passed by counting brackets of all kinds
alike, so those of an annotation in which brackets are not paired may run into the second unit
(`Cursor.AnnotationsClose`). In texts whose brackets pair up none does
(`Analyzer.annotationsClose_of_check`).
-/

namespace FieldShadow

open Cursor Outline

/-! ## Reading -/

/-- A stretch moved down is one between its moved ends. -/
theorem Span.below_to (lines : Nat) (s t : Span) :
    (s.to t).below lines = (s.below lines).to (t.below lines) :=
  rfl

/-- A row with the end behind it is read without the end. -/
theorem Cursor.ofLexemes_concat (row : List Lexeme) (s : Span) :
    ofLexemes (row ++ [⟨.eof, s⟩]) = ⟨row, s⟩ := by
  simp [ofLexemes]

/-- The type declarations of a unit. -/
def Cursor.outlines (c : Cursor) : Except SyntaxError (List Outline) :=
  c.declarations.map From.value

theorem Cursor.outlines_nil (stop : Span) : (mk [] stop).outlines = .ok [] := by
  rw [outlines, declarations]
  rfl

/-- A unit in front of more tokens. -/
theorem Cursor.Extension.outlines_cursor (x : Extension) {os os' : List Outline}
    (h : x.whole.outlines = .ok os) (hmore : x.more.outlines = .ok os')
    (heof : ∀ l ∈ x.whole.pending, l.token ≠ .eof) :
    (x.cursor x.whole).outlines = .ok (movedAll x.move os ++ os') := by
  obtain ⟨r, hr, rfl⟩ := map_eq_ok.mp h
  obtain ⟨r', hr', rfl⟩ := map_eq_ok.mp hmore
  exact map_eq_ok.mpr (declarations_cursor hr hr' (.refl _) heof)

/-- A unit whose tokens stand in other places. -/
theorem outlines_moved {row : List Lexeme} {s : Span} {os : List Outline} {move : Span → Span}
    (hmove : ∀ s t, move (s.to t) = (move s).to (move t)) (s' : Span)
    (h : (Cursor.mk row s).outlines = .ok os) (heof : ∀ l ∈ row, l.token ≠ .eof) :
    (Cursor.mk (row.map fun l => ⟨l.token, move l.span⟩) s').outlines =
      .ok (movedAll move os) := by
  let x : Extension := .alone ⟨row, s⟩ move hmove s'
  have hcursor : x.cursor x.whole = ⟨row.map fun l => ⟨l.token, move l.span⟩, s'⟩ := by
    simp only [x, Extension.cursor, Extension.alone, List.append_nil]
  have hread := x.outlines_cursor h (outlines_nil _) heof
  rwa [hcursor, List.append_nil] at hread

/-- A unit further down in the text. -/
theorem outlines_below {row : List Lexeme} {s : Span} {os : List Outline} (lines : Nat)
    (h : (Cursor.mk row s).outlines = .ok os) (heof : ∀ l ∈ row, l.token ≠ .eof) :
    (Cursor.mk (row.map (Lexeme.below lines)) (s.below lines)).outlines =
      .ok (movedAll (Span.below lines) os) :=
  outlines_moved (Span.below_to lines) (s.below lines) h heof

/-- A unit that is read ends with a brace or a semicolon, or is empty. -/
theorem closed_of_outlines {row : List Lexeme} {s : Span} {os : List Outline}
    (h : (Cursor.mk row s).outlines = .ok os) (heof : ∀ l ∈ row, l.token ≠ .eof) :
    (Cursor.mk row s).Closed := by
  obtain ⟨r, hr, -⟩ := map_eq_ok.mp h
  refine closed_of_declarations hr (.refl _) heof fun hnil l hl => ?_
  rw [hnil] at hl
  cases hl

/-- A unit behind another one. -/
theorem outlines_append {row row' : List Lexeme} {s s' : Span} {os os' : List Outline}
    (h : (Cursor.mk row s).outlines = .ok os) (h' : (Cursor.mk row' s').outlines = .ok os')
    (heof : ∀ l ∈ row, l.token ≠ .eof) (hclose : (Cursor.mk row s).AnnotationsClose) :
    (Cursor.mk (row ++ row') s').outlines = .ok (os ++ os') := by
  let x : Extension := {
    whole := ⟨row, s⟩
    more := ⟨row', s'⟩
    move := id
    move_to := fun _ _ => rfl
    ends := fun _ => closed_of_outlines h heof
    closes := fun _ => hclose }
  have hcursor : x.cursor x.whole = ⟨row ++ row', s'⟩ := by
    simp only [x, Extension.cursor, id, List.map_id']
  have hread := x.outlines_cursor h h' heof
  rwa [hcursor, movedAll_id] at hread

/-! ## Paired brackets -/

namespace Core

/-- The opening and the closing bracket of each kind. -/
def bracketPairs : List (Token × Token) :=
  [(.leftParen, .rightParen), (.leftBracket, .rightBracket), (.leftBrace, .rightBrace)]

/-- Each bracket of a pair is an opening or a closing one. -/
theorem opens_closes_of_mem {t t' : Token} (h : (t, t') ∈ bracketPairs) :
    t.opens ∧ t'.closes := by
  simp only [bracketPairs, List.mem_cons, Prod.mk.injEq, List.not_mem_nil, or_false] at h
  rcases h with ⟨rfl, rfl⟩ | ⟨rfl, rfl⟩ | ⟨rfl, rfl⟩ <;> exact ⟨rfl, rfl⟩

/-- Tokens whose brackets pair up, each with one of its kind. -/
inductive Paired : List Lexeme → Prop
  | nil : Paired []
  | plain {t : Token} {s : Span} {ls : List Lexeme} (opens : ¬ t.opens) (closes : ¬ t.closes)
      (eof : t ≠ .eof) (rest : Paired ls) : Paired (⟨t, s⟩ :: ls)
  | group {t t' : Token} {s s' : Span} {ls ls' : List Lexeme} (pair : (t, t') ∈ bracketPairs)
      (inner : Paired ls) (rest : Paired ls') : Paired (⟨t, s⟩ :: ls ++ ⟨t', s'⟩ :: ls')

/-- Brackets that pair up are balanced, so that groups among them can be passed. -/
theorem Paired.balanced {ls : List Lexeme} (h : Paired ls) : Balanced ls := by
  induction h with
  | nil => exact .nil
  | plain opens closes eof _ ih => exact .plain opens closes eof ih
  | group pair _ _ ihInner ihRest =>
    obtain ⟨hopens, hcloses⟩ := opens_closes_of_mem pair
    exact .group hopens ihInner hcloses ihRest

/-- Behind each parenthesis that opens stands the one that closes it. -/
theorem Paired.exists_closing {ls behind : List Lexeme} {s : Span} (h : Paired ls)
    (hsuffix : ⟨.leftParen, s⟩ :: behind <:+ ls) :
    ∃ inner s' rest, behind = inner ++ ⟨.rightParen, s'⟩ :: rest ∧ Balanced inner := by
  induction h generalizing behind with
  | nil => exact nomatch List.suffix_nil.mp hsuffix
  | plain opens _ _ _ ih =>
    rcases List.suffix_cons_iff.mp hsuffix with heq | hsuffix
    · cases heq
      exact absurd rfl opens
    · exact ih hsuffix
  | @group t t' s₁ s₂ ls ls' pair inner _ ihInner ihRest =>
    have hcloses := (opens_closes_of_mem pair).2
    rcases List.suffix_cons_iff.mp hsuffix with heq | ⟨before, hbefore⟩
    · cases heq
      -- the parenthesis opens the group, so the group is closed by its partner
      obtain rfl : t' = .rightParen := by
        simpa [bracketPairs] using pair
      exact ⟨ls, s₂, ls', rfl, inner.balanced⟩
    · -- the parenthesis stands in the group or behind it
      rcases List.append_eq_append_iff.mp hbefore with ⟨l, hls, hl⟩ | ⟨l, -, hl⟩
      · cases l with
        | nil =>
          cases hl
          cases hcloses
        | cons l₀ l =>
          obtain ⟨rfl, rfl⟩ := List.cons.inj hl
          obtain ⟨inner', s', rest', rfl, hinner⟩ := ihInner ⟨before, hls.symm⟩
          exact ⟨inner', s', rest' ++ ⟨t', s₂⟩ :: ls', by simp, hinner⟩
      · cases l with
        | nil =>
          cases hl
          cases hcloses
        | cons l₀ l =>
          obtain ⟨-, rfl⟩ := List.cons.inj hl
          exact ihRest (List.suffix_append _ _)

end Core

namespace Cursor

open FieldShadow.Core

/-- The name of an annotation does not reach the end of a closed unit. -/
theorem qualifiers_pending_ne_nil {c whole : Cursor} (hclosed : whole.Closed)
    (hc : c.PlaceIn whole) (hne : c.pending ≠ []) :
    c.qualifiers.rest.PlaceIn whole ∧ c.qualifiers.rest.pending ≠ [] := by
  rw [qualifiers]
  split
  · next s c₁ h₁ hview =>
    have hc₁ := hc.of_view hview
    split
    · next name s' c₂ h₂ hview₁ =>
      have hne₂ := hc₁.pending_ne_nil hclosed hview₁ (by simp)
      exact qualifiers_pending_ne_nil hclosed (hc₁.of_view hview₁) hne₂
    · exact ⟨hc, hne⟩
  · exact ⟨hc, hne⟩
termination_by c.remaining

/-- The group that a parenthesis opens, if it is closed by one. -/
theorem gives_bracketed_group {inner rest : List Lexeme} {s s' stop : Span} (h : Balanced inner) :
    Gives (fun c => c.bracketed 0) ⟨⟨.leftParen, s⟩ :: (inner ++ ⟨.rightParen, s'⟩ :: rest), stop⟩
      () ⟨rest, stop⟩ := by
  have hclose : Gives (fun c => c.bracketed 1) ⟨⟨.rightParen, s'⟩ :: rest, stop⟩ ()
      ⟨rest, stop⟩ := by
    rw [Gives, bracketed]
    simp [Token.closes]
  obtain ⟨_, hinner⟩ := (gives_bracketed h hclose).eq
  rw [Gives, bracketed]
  simp [Token.closes, Token.opens, hinner]

/-- In a text whose brackets pair up no group is open at the end, and none that a parenthesis opens
is closed by the last token. -/
theorem bracketed_of_paired {c whole : Cursor} (h : Paired whole.pending) (hclosed : whole.Closed)
    (hc : c.PlaceIn whole) (hparen : c.current = .leftParen) :
    ∃ r, c.bracketed 0 = .ok r ∧ r.rest.remaining ≠ 0 := by
  obtain ⟨pending, stop⟩ := c
  cases pending with
  | nil => cases hparen
  | cons l behind =>
    obtain ⟨t, s⟩ := l
    obtain rfl : t = .leftParen := hparen
    obtain ⟨inner, s', rest, rfl, hinner⟩ := h.exists_closing hc.suffix
    obtain ⟨_, heq⟩ := (gives_bracketed_group hinner).eq
    refine ⟨_, heq, fun hnil => ?_⟩
    obtain rfl : rest = [] := List.length_eq_zero_iff.mp hnil
    obtain ⟨before, hbefore⟩ := hc.suffix
    -- if nothing were left, the parenthesis would be the last token of the unit
    have hlast : whole.pending.getLast? = some ⟨.rightParen, s'⟩ := by
      rw [← hbefore, ← List.cons_append, ← List.append_assoc]
      exact List.getLast?_concat
    rcases hclosed _ hlast with h | h
    · cases h
    · cases h

/-- In a text whose brackets pair up every annotation ends in front of the last token. -/
theorem annotationsClose_of_paired {whole : Cursor} (h : Paired whole.pending)
    (hclosed : whole.Closed) : whole.AnnotationsClose := by
  intro n _
  have hc : PlaceIn ⟨whole.pending.drop n, whole.stop⟩ whole := ⟨rfl, List.drop_suffix _ _⟩
  generalize mk (whole.pending.drop n) whole.stop = c at hc
  unfold annotationReachesEnd
  rw [annotationUse]
  cases hat : c.expect .annotationSign with
  | error e =>
    unfold expect at hat
    split at hat
    · cases hat
    · cases hat
      rfl
  | ok r₁ =>
    -- the sequence itself, seen as an extension by nothing, gives the places of what is read
    let x : Extension := .alone whole id (fun _ _ => rfl) whole.stop
    have hc₁ := (x.expect_cursor hat hc).2.1
    cases hname : r₁.rest.name .annotationType with
    | error e =>
      simp only [bind_ok, hname]
      unfold name at hname
      split at hname
      · cases hname
      · cases hname
        rfl
    | ok r₂ =>
      obtain ⟨hc₂, hne₂⟩ : r₂.rest.PlaceIn whole ∧ r₂.rest.pending ≠ [] := by
        unfold name at hname
        split at hname
        · next hview =>
          cases hname
          exact ⟨hc₁.of_view hview, hc₁.pending_ne_nil hclosed hview (by simp)⟩
        · cases hname
      obtain ⟨hc₃, hne₃⟩ := qualifiers_pending_ne_nil hclosed hc₂ hne₂
      simp only [bind_ok, hname]
      -- a name never ends a closed unit; a group is followed by the rest of the row it pairs up in
      by_cases hparen : r₂.rest.qualifiers.rest.current = .leftParen
      · obtain ⟨r, hr, hne⟩ := bracketed_of_paired h hclosed hc₃ hparen
        simp only [hparen, if_true, hr, bind_ok]
        exact beq_false_of_ne hne
      · simp only [hparen, if_false]
        exact beq_false_of_ne fun hnil => hne₃ (List.length_eq_zero_iff.mp hnil)

end Cursor

/-! ## Grading -/

/-- Findings are graded one by one. -/
theorem Config.regrade_append (c : Config) (found found' : List Diagnostic) :
    c.regrade (found ++ found') = c.regrade found ++ c.regrade found' := by
  unfold regrade
  split
  · exact List.map_append
  · rfl

theorem Config.regrade_moved (c : Config) (move : Span → Span) (found : List Diagnostic) :
    c.regrade (found.map (Diagnostic.moved move)) =
      (c.regrade found).map (Diagnostic.moved move) := by
  unfold regrade
  split
  · rw [List.map_map, List.map_map]
    refine List.map_congr_left fun d _ => ?_
    by_cases hwarning : d.severity = .warning <;>
      simp [Diagnostic.promoted, Diagnostic.moved, hwarning]
  · rfl

namespace Analyzer

/-- A check reads the declarations of a text and analyzes their tree. -/
theorem result_check_eq_ok {a : Analyzer} {source : String} {found : List Diagnostic} :
    (a.check source).result = .ok found ↔ ∃ ls os, tokenize source = .ok ls ∧
      (ofLexemes ls).outlines = .ok os ∧ (a.analyze (.ofOutlines os)).result = .ok found := by
  cases hls : tokenize source with
  | error e => simp [check, hls]
  | ok ls =>
    cases hr : (ofLexemes ls).declarations with
    | error e => simp [check, hls, Parser.next, Parser.ofLexemes, outlines, hr, Except.map]
    | ok r => simp [check, hls, Parser.next, Parser.ofLexemes, outlines, hr, Except.map]

/-- An accepted text whose brackets pair up can stand in front of others. -/
theorem annotationsClose_of_check {a : Analyzer} {source : String} {ls : List Lexeme}
    {found : List Diagnostic} (h : (a.check source).result = .ok found)
    (hls : tokenize source = .ok ls) (hpaired : Core.Paired (ofLexemes ls).pending) :
    (ofLexemes ls).AnnotationsClose := by
  obtain ⟨ls', os, hls', hos, -⟩ := result_check_eq_ok.mp h
  obtain rfl := Except.ok.inj (hls.symm.trans hls')
  obtain ⟨row, s, rfl, heof⟩ := exists_of_tokenize hls
  rw [ofLexemes_concat] at hos hpaired ⊢
  exact annotationsClose_of_paired hpaired (closed_of_outlines hos heof)

/-- Without a limit the findings of two rows of outlines in one tree are those of both, the second
moved. -/
theorem result_analyze_append {config : Config} (hlimit : config.errorLimit? = none)
    (move : Span → Span) {os os' : List Outline} {found found' : List Diagnostic}
    (h : ((new config).analyze (.ofOutlines os)).result = .ok found)
    (h' : ((new config).analyze (.ofOutlines os')).result = .ok found') :
    ((new config).analyze (.ofOutlines (os ++ movedAll move os'))).result =
      .ok (found ++ found'.map (Diagnostic.moved move)) := by
  have hlinked (os : List Outline) := (SyntaxTree.grown_ofOutlines os).linked
  rw [analyze_eq (hlinked os)] at h
  rw [analyze_eq (hlinked os')] at h'
  obtain rfl := Except.ok.inj h
  obtain rfl := Except.ok.inj h'
  rw [analyze_eq (hlinked _), SyntaxTree.shadowings_ofOutlines]
  simp only [Config.postProcess, hlimit, ← Config.regrade_moved, ← Config.regrade_append]
  split <;> rfl

/-- The reports about two units behind each other are those about the first and then those about the
second, so many lines further down as stand in front of it. -/
theorem check_append {config : Config} (hlimit : config.errorLimit? = none)
    {first second : String} {found found' : List Diagnostic}
    (hclose : ∀ ls, tokenize first = .ok ls → (ofLexemes ls).AnnotationsClose)
    (h : ((new config).check first).result = .ok found)
    (h' : ((new config).check second).result = .ok found') :
    ((new config).check (first ++ "\n" ++ second)).result =
      .ok (found ++ found'.map (Diagnostic.moved (Span.below (1 + first.toList.count '\n')))) := by
  obtain ⟨ls, os, hls, hos, hfound⟩ := result_check_eq_ok.mp h
  obtain ⟨ls', os', hls', hos', hfound'⟩ := result_check_eq_ok.mp h'
  have hclose := hclose ls hls
  obtain ⟨row, s, rfl, heof⟩ := exists_of_tokenize hls
  obtain ⟨row', s', rfl, heof'⟩ := exists_of_tokenize hls'
  rw [ofLexemes_concat] at hclose hos hos'
  have hbelow := outlines_below (1 + first.toList.count '\n') hos' heof'
  refine result_check_eq_ok.mpr ⟨_, _, tokenize_append hls hls', ?_,
    result_analyze_append hlimit _ hfound hfound'⟩
  rw [ofLexemes_concat]
  exact outlines_append hos hbelow heof hclose

/-- A class with an annotated field that a parameter hides. -/
def annotatedSource : String :=
  "class A \x7b @Size(max = 3) int x;\n  void f(int x) \x7b\x7d \x7d"

/-- A class with an annotation, checked twice in one text: the second report is two lines further
down. -/
theorem check_append_annotatedSource :
    ((new {}).check (annotatedSource ++ "\n" ++ annotatedSource)).result =
      .ok [⟨"hidden-field", .error, "'x' hides a field.", ["x"], .at ⟨2, 14⟩⟩,
        ⟨"hidden-field", .error, "'x' hides a field.", ["x"], .at ⟨4, 14⟩⟩] := by
  have hclose : (tokenize annotatedSource).toOption.all fun ls =>
      decide (ofLexemes ls).AnnotationsClose := by decide +kernel
  have hcheck : ((new {}).check annotatedSource).result =
      .ok [⟨"hidden-field", .error, "'x' hides a field.", ["x"], .at ⟨2, 14⟩⟩] :=
    eq_ok_of_toOption (by decide +kernel)
  refine (@check_append {} rfl _ _ _ _ (fun ls hls => ?_) hcheck hcheck).trans ?_
  · rw [hls] at hclose
    exact of_decide_eq_true hclose
  · have hlines : 1 + annotatedSource.toList.count '\n' = 2 := by decide +kernel
    rw [hlines]
    rfl

/-- A class in which a statement begins with an annotation. Two brackets of its arguments are open
at the end of the type arguments in them. -/
def unpairedSource : String :=
  "class A \x7b void f() \x7b @X(new B<[[>()) y; \x7d \x7d"

/-- The class can be read alone, and in front of another class it cannot. -/
theorem check_ne_unpairedSource :
    ¬ ∀ (config : Config) (first second : String) (found found' : List Diagnostic),
      config.errorLimit? = none → ((new config).check first).result = .ok found →
      ((new config).check second).result = .ok found' →
      ((new config).check (first ++ "\n" ++ second)).result =
        .ok (found ++
          found'.map (Diagnostic.moved (Span.below (1 + first.toList.count '\n')))) := by
  intro h
  have hboth := h {} unpairedSource "class C \x7b \x7d" [] [] rfl
    (eq_ok_of_toOption (by decide +kernel)) (eq_ok_of_toOption (by decide +kernel))
  have hnone : ((new {}).check
      (unpairedSource ++ "\n" ++ "class C \x7b \x7d")).result.toOption.isNone := by
    decide +kernel
  rw [hboth] at hnone
  cases hnone

end Analyzer

end FieldShadow
