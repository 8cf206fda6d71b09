import FieldShadow.Proofs.Grammar.Builder.Body

/-!
# Units that are built while they are read

A call of the parser that adds its nodes while it reads has the answer of the parser that hangs the
outlines of a whole unit at its end (`exists_unit_eq`), for all tokens and from every state that
calls lead to. So a tree of one is a tree of the other (`ofSource_eq_ok_iff`), node for node and
number for number. What is proved of trees by their outlines holds of trees that came about one node
at a time.
-/

namespace FieldShadow.Builder

open Stateful State

open Cursor (From)

open State.Grafts

variable {whole : Cursor} {inner : Inner whole} {n : Nat} {s : State whole} {c : Cursor}

/-- The types of a unit are hung below the root in their order. Nothing is hung for directives. -/
theorem declarations_grafts (ih : inner.HangsBelow n) (hs : s.place = c) (hn : c.remaining ≤ n) :
    s.Grafts s SyntaxTree.root From.rest From.value c.declarations (declarations inner ()) := by
  refine loop_grafts (fun _ => From.rest) (fun _ => From.value) (fun c _ => c.declarations)
    (fun c s _ again hs hn hagain => of_current ?_) hs hn ()
  have hg := Hung.refl s SyntaxTree.root
  -- directives hang nothing, so what stands behind them is hung as if it stood here
  have hdirective : s.Grafts s SyntaxTree.root From.rest From.value
      (c.directive >>= fun r => do
        let r' ← r.rest.declarations
        return ⟨r'.value, r'.rest, r'.notBefore.of_behind r.behind⟩)
      (do directive (); again ()) := by
    refine bind_follows (directive_follows hs) hg fun r₁ s₁ hs₁ hg₁ => ?_
    exact (hagain r₁.rest s₁ () hs₁ r₁.behind).carried hg₁ fun r => ⟨_, rfl, rfl, rfl⟩
  split
  · next heof =>
    rw [Cursor.declarations, Cursor.view_eq_stop ((token_eq hs).symm.trans heof)]
    exact .done hs hg
  · next hsemicolon =>
    obtain ⟨_, c₁, h₁, hview, hs₁⟩ := exists_view hs hsemicolon (by simp)
    rw [Cursor.declarations, hview]
    exact of_advance ((hagain c₁ _ () hs₁ h₁).carried hg.next fun r => ⟨_, rfl, rfl, rfl⟩)
  case h_3 | h_4 =>
    next hdirectiveStart =>
    obtain ⟨_, c₁, h₁, hview, -⟩ := exists_view hs hdirectiveStart (by simp)
    rw [Cursor.declarations, hview]
    exact hdirective
  · next heof hsemicolon hpackage himport =>
    rw [Cursor.declarations]
    split
    · next hview => exact (heof (token_of_view_stop hs hview)).elim
    · next hview => exact (hsemicolon (token_of_view hs hview)).elim
    · next hview => exact (hpackage (token_of_view hs hview)).elim
    · next hview => exact (himport (token_of_view hs hview)).elim
    · refine bind_follows (modifiers_follows hs []) hg fun r₁ s₁ hs₁ hg₁ => of_current ?_
      obtain ⟨ms, c₁, h₁⟩ := r₁
      rw [token_eq hs₁]
      dsimp only
      split
      · refine bind_follows (directive_follows hs₁) hg₁ fun r₂ s₂ hs₂ hg₂ => ?_
        exact (hagain r₂.rest s₂ () hs₂ (r₂.behind.trans_le h₁)).carried hg₂
          fun r => ⟨_, rfl, rfl, rfl⟩
      · refine (typeDeclaration_grafts ih hs₁ (Nat.le_trans h₁ hn) _ ms).bind hg₁
          fun r₂ s₂ hs₂ hg₂ => ?_
        exact (hagain r₂.rest s₂ () hs₂ (r₂.behind.trans_le h₁)).carried hg₂
          fun r => ⟨_, rfl, rfl, rfl⟩

/-! ## Calls -/

/-- After an error the parser reads no more. -/
theorem unit_of_errors (h : s.errors ≠ []) : unit s = some (.error s.errors, s) := by
  rw [unit, if_neg h, answer, if_neg h]

/-- A unit that was read is given away. -/
theorem unit_of_ok {s' : State whole} (h : s.errors = [])
    (hrun : declarations (readers whole whole.row.length) () s = some (.ok (), s'))
    (h' : s'.errors = []) : unit s = some (.ok s'.tree, { s' with tree := .empty }) := by
  rw [unit, if_pos h, hrun]
  exact congrArg some (if_pos h')

/-- An error is kept and is the answer. -/
theorem unit_of_error {s' : State whole} {e : SyntaxError} (h : s.errors = [])
    (hrun : declarations (readers whole whole.row.length) () s = some (.error e, s'))
    (h' : s'.errors = []) :
    unit s = some (.error [e.message], { s' with errors := [e.message] }) := by
  have hmessage : s'.errors ++ [e.message] = [e.message] := by rw [h', List.nil_append]
  rw [unit, if_pos h, hrun]
  dsimp only [Option.map_some]
  rw [hmessage]
  rfl

/-- The parser stands where a parser of the grammar does, with its tree given away and no error, or
both have failed with the same error. -/
inductive Mirrors (s : State whole) (p : Parser) : Prop
  | reads (error?_eq : p.error? = none) (place : s.place = p.cursor) (tree_eq : s.tree = .empty)
      (errors_eq : s.errors = [])
  | failed {e : ParseError} (error?_eq : p.error? = some e) (errors_eq : s.errors = [e.message])

/-- At the first token, with nothing read, both parsers stand at the same place. -/
theorem mirrors_start (ls : List Lexeme) : Mirrors (start (.ofLexemes ls)) (.ofLexemes ls) :=
  .reads rfl (congrArg (Cursor.mk · _) List.drop_zero) rfl rfl

/-- Whatever the tokens are, a call of the parser that adds its nodes while it reads has an answer.
It is that of the parser which hangs the outlines of a unit when it was read as a whole, and both
stand at the same place again. -/
theorem exists_unit_eq {p : Parser} (h : Mirrors s p) :
    ∃ s', unit s = some (p.next.1.mapError fun e => [e.message], s') ∧ Mirrors s' p.next.2 := by
  -- a parser that has failed answers its error again; else one unit is read
  cases h with
  | @failed e herror herrors =>
    refine ⟨s, ?_, ?_⟩
    · rw [unit_of_errors (by simp [herrors]), Parser.next, herror, herrors]
      rfl
    · rw [Parser.next, herror]
      exact .failed herror herrors
  | reads herror place htree herrors =>
    have hn : p.cursor.remaining ≤ whole.row.length := by
      have hlength := s.isAt_place.length_eq
      rw [place] at hlength
      omega
    have hrun := declarations_grafts (readers_hangsBelow whole whole.row.length) place hn
    rw [Parser.next, herror]
    dsimp only
    rw [Grafts] at hrun
    -- both readings become variables, so that the cases of the grafting give their values
    generalize hread : p.cursor.declarations = a,
      hunit : declarations (readers whole whole.row.length) () s = run at hrun
    cases hrun with
    | @ends r s' place' hung =>
      have herrors' : s'.errors = [] := hung.errors_eq.trans herrors
      have htree' : s'.tree = .ofOutlines r.value := by
        rw [hung.tree_eq, htree]
        rfl
      -- the tree has been handed over, so the parser starts the next one empty
      refine ⟨{ s' with tree := .empty }, ?_, .reads rfl place' rfl herrors'⟩
      rw [unit_of_ok herrors hunit herrors', htree']
      rfl
    | @fails s' e herrors' =>
      exact ⟨_, unit_of_error herrors hunit (herrors'.trans herrors), .failed rfl rfl⟩

/-- What is read from a text is read from its tokens. -/
theorem ofSource_of_tokenize {source : String} {ls : List Lexeme} (h : tokenize source = .ok ls) :
    SyntaxTree.ofSource source = (Parser.ofLexemes ls).next.1 := by
  have hscanner : (Scanner.ofSource source).tokens = .ok ls := h
  rw [SyntaxTree.ofSource, Parser.ofScanner, hscanner]

/-- A text with a tree has tokens, and the tree is read from them. -/
theorem exists_tokens_of_ofSource {source : String} {t : SyntaxTree}
    (h : SyntaxTree.ofSource source = .ok t) :
    ∃ ls, tokenize source = .ok ls ∧ (Parser.ofLexemes ls).next.1 = .ok t := by
  rw [SyntaxTree.ofSource, Parser.ofScanner] at h
  split at h
  · next ls hls => exact ⟨ls, hls, h⟩
  · cases h

/-- A text has a tree exactly if the parser builds one from its tokens, and it is that tree. -/
theorem ofSource_eq_ok_iff {source : String} {t : SyntaxTree} :
    SyntaxTree.ofSource source = .ok t ↔
      ∃ ls s, tokenize source = .ok ls ∧ unit (start (.ofLexemes ls)) = some (.ok t, s) := by
  constructor
  · intro h
    obtain ⟨ls, hls, hnext⟩ := exists_tokens_of_ofSource h
    obtain ⟨s, hunit, -⟩ := exists_unit_eq (mirrors_start ls)
    rw [hnext] at hunit
    exact ⟨ls, s, hls, hunit⟩
  · rintro ⟨ls, s, hls, h⟩
    obtain ⟨s', hunit, -⟩ := exists_unit_eq (mirrors_start ls)
    rw [ofSource_of_tokenize hls]
    -- the two runs have one answer, so the reader did not fail
    have hanswer := (Prod.mk.inj (Option.some.inj (hunit.symm.trans h))).1
    cases hnext : (Parser.ofLexemes ls).next.1 with
    | ok t' =>
      rw [hnext] at hanswer
      exact congrArg _ (Except.ok.inj hanswer)
    | error e =>
      rw [hnext] at hanswer
      cases hanswer

end FieldShadow.Builder
