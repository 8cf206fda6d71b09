import FieldShadow.Proofs.Grammar.Builder.Heading

/-!
# Bodies that are built while they are read

Each reader of the parser that adds its nodes while it reads hangs below a node what the reader of
the grammar gives. The readers call each other, so everything here is for cursors with at most `n`
tokens and uses what is known of the readers that are called again where fewer are left
(`Inner.HangsBelow`). With as many calls inside of each other as there are tokens the readers
therefore come through everywhere (`readers_hangsBelow`); none of them runs out of calls.

A statement needs no case for each of its forms here. What it hands over to is shown to be the
grammar's (`callees_hangFrom`), and the rest was shown where attempts were.
-/

namespace FieldShadow

namespace Cursor

/-! ## Handlers -/

/-- Reads a `catch` clause behind its keyword. -/
def catchClause (c : Cursor) (clause : Span) : Except SyntaxError (After c (List Outline)) := do
  let ⟨parameter, c₁, h₁⟩ ← c.catchParameter
  let ⟨body, c₂, h₂⟩ ← c₁.block
  return ⟨[.node .catchClause clause [parameter, body]], c₂, h₂.trans h₁⟩

/-- Handlers are read one clause at a time. -/
theorem catches_eq (c : Cursor) : c.catches =
    match c.accept? (.keyword .catch) with
    | none => .ok (c.stay [])
    | some r => r.rest.catchClause r.value >>= fun r₁ => r₁.rest.catches >>= fun r₂ =>
      .ok ⟨r₁.value ++ r₂.value, r₂.rest, r₂.notBefore.of_behind (r₁.behind.trans r.behind)⟩ := by
  rw [catches]
  cases c.accept? (.keyword .catch) with
  | none => rfl
  | some r =>
    simp only [catchClause, bind_assoc, pure_bind]
    rfl

/-! ## Method bodies -/

/-- What stands in front of the body of a method is passed over. -/
theorem methodBody_of_view {c c₁ : Cursor} {t : Token} {span : Span} {h₁ : c₁.Behind c}
    (hview : c.view = .token t span c₁ h₁)
    (ht : ¬ (t = .leftBrace ∨ t = .semicolon ∨ t = .modifier .default)) :
    c.methodBody = c₁.methodBody >>= fun r => .ok ⟨r.value, r.rest, r.behind.trans h₁⟩ := by
  rw [methodBody, methodBody, methodClauses, hview]
  simp only [if_neg ht, bind_assoc, pure_bind]
  refine congrArg _ (funext fun r => ?_)
  split
  all_goals simp only [bind_assoc, pure_bind]
  all_goals rfl

/-- In front of a body, a semicolon or a default value there is nothing to pass. -/
theorem methodClauses_of_view {c c₁ : Cursor} {t : Token} {span : Span} {h₁ : c₁.Behind c}
    (hview : c.view = .token t span c₁ h₁)
    (ht : t = .leftBrace ∨ t = .semicolon ∨ t = .modifier .default) :
    c.methodClauses = .ok (c.stay ()) := by
  rw [methodClauses, hview]
  exact if_pos ht

/-- A method with a block has that block below it. -/
theorem methodBody_of_leftBrace {c : Cursor} (h : c.current = .leftBrace) :
    c.methodBody = c.block >>= fun r => .ok r.single := by
  obtain ⟨_, _, _, hview⟩ := exists_view_of_current h (by simp)
  rw [methodBody, methodClauses_of_view hview (.inl rfl)]
  simp only [bind_ok, stay, hview]
  rfl

/-- A method that ends with a semicolon has nothing below its parameters. -/
theorem methodBody_of_semicolon {c c₁ : Cursor} {span : Span} {h₁ : c₁.Behind c}
    (hview : c.view = .token .semicolon span c₁ h₁) : c.methodBody = .ok ⟨[], c₁, h₁⟩ := by
  rw [methodBody, methodClauses_of_view hview (.inr (.inl rfl))]
  simp only [bind_ok, stay, hview]
  rfl

/-- A default value is passed up to its semicolon. -/
theorem methodBody_of_default {c c₁ : Cursor} {span : Span} {h₁ : c₁.Behind c}
    (hview : c.view = .token (.modifier .default) span c₁ h₁) :
    c.methodBody = c₁.expression [.semicolon] 0 >>= fun r =>
      r.rest.expect .annotationDefaultEnd >>= fun r' =>
        .ok ⟨r.value, r'.rest, (r'.behind.trans_le r.notBefore).trans h₁⟩ := by
  rw [methodBody, methodClauses_of_view hview (.inr (.inr rfl))]
  simp only [bind_ok, stay, hview]
  rfl

/-- A method without an end is refused where the text ends. -/
theorem methodBody_of_eof {c : Cursor} (h : c.current = .eof) :
    c.methodBody = .error (c.fault (.more .methodHeader)) := by
  rw [methodBody, methodClauses, view_eq_stop h]
  rfl

end Cursor

namespace Builder

open Stateful State

open Cursor (After From ReadsRow)

open State.Grafts

variable {whole : Cursor} {inner : Inner whole} {n : Nat} {s : State whole} {c : Cursor}

/-! ## Readers that come back to themselves -/

/-- Where fewer than `n` tokens are left, the readers that are read again inside of others hang
below a node what the readers of the grammar give. -/
structure Inner.HangsBelow (inner : Inner whole) (n : Nat) : Prop where
  typeBody : ∀ {s : State whole} {c : Cursor}, s.place = c → c.remaining < n → ∀ owner,
    s.Grafts s owner After.rest (fun r => [r.value]) c.typeBody (inner.typeBody owner)
  enumBody : ∀ {s : State whole} {c : Cursor}, s.place = c → c.remaining < n → ∀ owner,
    s.Grafts s owner After.rest (fun r => [r.value]) c.enumBody (inner.enumBody owner)
  statement : ∀ {s : State whole} {c : Cursor}, s.place = c → c.remaining < n → ∀ parent,
    s.Grafts s parent After.rest After.value c.statement (inner.statement parent)
  expression : ∀ {s : State whole} {c : Cursor}, s.place = c → c.remaining < n →
    ∀ parent terminators, .eof ∉ terminators →
      s.Grafts s parent From.rest From.value (c.expression terminators 0)
        (inner.expression parent terminators)

/-- A row of things that each hang what the grammar gives hangs what the grammar gives for the row.
-/
theorem untilBrace_grafts {enclosure : Enclosure}
    {read : (c : Cursor) → Except SyntaxError (After c (List Outline))}
    {row : (c : Cursor) → Except SyntaxError (From c (List Outline))} {one : Action whole Unit}
    {parent : Nat} (hrow : ReadsRow enclosure read row)
    (hone : ∀ {s : State whole} {c : Cursor}, s.place = c → c.remaining ≤ n →
      s.Grafts s parent After.rest After.value (read c) one)
    (hs : s.place = c) (hn : c.remaining ≤ n) :
    s.Grafts s parent From.rest From.value (row c) (untilBrace enclosure one ()) := by
  refine loop_grafts (fun _ => From.rest) (fun _ => From.value) (fun c _ => row c)
    (fun c s _ again hs hn hagain => of_current ?_) hs hn ()
  rw [token_eq hs]
  split
  · next hbrace =>
    rw [hrow.brace c hbrace]
    exact .done hs (.refl s parent)
  · next heof =>
    rw [hrow.eof c heof]
    exact .failed hs rfl _
  · next hbrace heof =>
    rw [hrow.more c heof hbrace]
    refine (hone hs hn).bind (.refl s parent) fun r₁ s₁ hs₁ hg₁ => ?_
    -- the first thing takes a token, so the loop is entered again further on
    exact (hagain r₁.rest s₁ () hs₁ r₁.behind).carried hg₁ fun r => ⟨_, rfl, rfl, rfl⟩

section

variable (ih : inner.HangsBelow n)
include ih

/-! ## Expressions -/

/-- Only the anonymous classes in the arguments are hung. -/
theorem arguments_grafts (hs : s.place = c) (hn : c.remaining ≤ n) (parent : Nat) :
    s.Grafts s parent After.rest After.value c.arguments (arguments inner parent) := by
  rw [Cursor.arguments]
  refine bind_follows (expect_follows hs _) (.refl s parent) fun r₁ s₁ hs₁ hg₁ => ?_
  obtain ⟨_, c₁, h₁⟩ := r₁
  refine (ih.expression hs₁ (Nat.lt_of_lt_of_le h₁ hn) parent _ (by simp)).bind hg₁
    fun r₂ s₂ hs₂ hg₂ => ?_
  obtain ⟨classes, c₂, h₂⟩ := r₂
  exact bind_follows (expect_follows hs₂ _) hg₂ fun _ s₃ hs₃ hg₃ => .done hs₃ hg₃

/-- The classes in the arguments are hung first, then the class that is created itself. The node
that both are hung below is the one that the expression belongs to, so the first are no part of the
second. -/
theorem creation_grafts (hs : s.place = c) (hn : c.remaining ≤ n) (parent : Nat) :
    s.Grafts s parent After.rest After.value c.creation (creation inner parent) := by
  rw [Cursor.creation]
  refine bind_follows (expect_follows hs _) (.refl s parent) fun r₁ s₁ hs₁ hg₁ => ?_
  obtain ⟨_, c₁, h₁⟩ := r₁
  refine bind_follows (typeArguments?_follows hs₁) hg₁ fun r₂ s₂ hs₂ hg₂ => ?_
  obtain ⟨_, c₂, h₂⟩ := r₂
  refine bind_follows (typeRef_follows hs₂) hg₂ fun r₃ s₃ hs₃ hg₃ => of_current ?_
  obtain ⟨type, c₃, h₃⟩ := r₃
  rw [token_eq hs₃]
  dsimp only
  by_cases hparen : c₃.current = .leftParen
  · rw [if_pos hparen, if_pos hparen]
    refine (arguments_grafts ih (c := c₃) hs₃ (by omega) parent).bind hg₃
      fun r₄ s₄ hs₄ hg₄ => of_current ?_
    obtain ⟨arguments, c₄, h₄⟩ := r₄
    rw [token_eq hs₄]
    dsimp only
    by_cases hbrace : c₄.current = .leftBrace
    · rw [if_pos hbrace, if_pos hbrace]
      -- the node of the class is added before its body is read, at the place of the brace
      refine grafts_of_currentSpan hs₄ (grafts_of_addNode ?_)
      exact carried_node (ih.typeBody (c := c₄) (place_added hs₄) (by omega) _) (.refl _ _) hg₄
        fun r => ⟨_, rfl, rfl, rfl⟩
    · rw [if_neg hbrace, if_neg hbrace]
      exact .done hs₄ hg₄
  · rw [if_neg hparen, if_neg hparen]
    exact .done hs₃ hg₃

/-- An expression hangs the anonymous classes in it, in their order. -/
theorem expression_grafts {terminators : List Token} (hterminators : .eof ∉ terminators)
    (hs : s.place = c) (hn : c.remaining ≤ n) (parent : Nat) :
    s.Grafts s parent From.rest From.value (c.expression terminators 0)
      (expression inner parent terminators) :=
  grafts_expression_of hterminators hs fun hs hd =>
    creation_grafts ih hs (Nat.le_trans hd hn) parent

/-- The classes in the initializer of a variable are hung below the variable. -/
theorem initializer_grafts (hs : s.place = c) (hn : c.remaining ≤ n) (parent : Nat) :
    s.Grafts s parent From.rest From.value c.initializer
      (whenAccepted .equal (inner.expression parent [.comma, .semicolon])) := by
  unfold Cursor.initializer
  rcases whenAccepted_cases hs (t := .equal) (by simp) _ with
    ⟨⟨_, c₁, h₁⟩, haccept, hs₁, hrun⟩ | ⟨haccept, hrun⟩
  · rw [haccept]
    refine of_run_eq hrun ?_
    exact (ih.expression hs₁ (Nat.lt_of_lt_of_le h₁ hn) parent _ (by simp)).carried
      (Hung.refl s parent).next fun r => ⟨_, rfl, rfl, rfl⟩
  · rw [haccept]
    exact of_run_eq hrun (.done hs (.refl s parent))

/-- Each variable is added behind its dimensions and in front of its initializer, all of them below
the same node. -/
theorem declarators_grafts (hs : s.place = c) (hn : c.remaining ≤ n) (parent : Nat)
    (ms : List Modifier) (type : TypeRef) (name : String) (span : Span) :
    s.Grafts s parent From.rest From.value (c.declarators ms type name span)
      (declarators inner parent ms type (name, span)) := by
  refine loop_grafts (fun _ => From.rest) (fun _ => From.value)
    (fun c declared => c.declarators ms type declared.1 declared.2)
    (fun c s declared again hs hn hagain => ?_) hs hn (name, span)
  rw [Cursor.declarators_eq]
  refine andThen (dimensions_follows hs type) (.refl s parent) fun s₁ hs₁ hg₁ => ?_
  -- dimensions cannot fail, so only where they end matters
  generalize c.dimensions type = dimensions at hs₁ ⊢
  obtain ⟨full, c₁, h₁⟩ := dimensions
  refine grafts_of_addNode ?_
  refine within (initializer_grafts ih (place_added hs₁) (Nat.le_trans h₁ hn) _) (.refl _ _)
    hg₁.errors_eq fun r₂ s₂ hs₂ hg₂ => ?_
  obtain ⟨classes, c₂, h₂⟩ := r₂
  -- what was hung below the variable is closed before the comma is looked at
  have hg₂ := hg₁.node hg₂
  dsimp only
  rcases whenAccepted_cases hs₂ (t := .comma) (by simp) (do
      let next ← identifier .variable
      again next) with ⟨⟨_, c₃, h₃⟩, haccept, hs₃, hrun⟩ | ⟨haccept, hrun⟩
  · rw [haccept]
    refine of_run_eq hrun ?_
    refine bind_follows (identifier_follows hs₃ _) hg₂.next fun r₄ s₄ hs₄ hg₄ => ?_
    obtain ⟨next, c₄, h₄⟩ := r₄
    have hbehind : c₄.Behind c := (h₄.trans h₃).trans_le (h₂.trans h₁)
    exact (hagain c₄ s₄ next hs₄ hbehind).carried hg₄ fun r => ⟨_, rfl, rfl, rfl⟩
  · rw [haccept]
    exact of_run_eq hrun (.done hs₂ hg₂)

/-! ## Statements -/

/-- A block is hung with its statements in it. -/
theorem block_grafts (hs : s.place = c) (hn : c.remaining ≤ n) (parent : Nat) :
    s.Grafts s parent After.rest (fun r => [r.value]) c.block (block inner parent) := by
  rw [Cursor.block_eq]
  refine braces_grafts hs (fun hs hd node => ?_) parent
  refine untilBrace_grafts Cursor.readsRow_statements (fun hs he => ?_) hs (Nat.le_refl _)
  exact ih.statement hs (Nat.lt_of_le_of_lt he (Nat.lt_of_lt_of_le hd hn)) node

/-- A label hangs nothing but the classes in it. `default` is a label in front of a colon only. -/
theorem caseGroup_grafts (hs : s.place = c) (hn : c.remaining < n) (parent : Nat) :
    s.Grafts s parent After.rest After.value c.caseGroup (caseGroup inner parent) := by
  refine of_current (of_peek ?_)
  split
  · next hcase =>
    obtain ⟨span, c₁, h₁, hview, hs₁⟩ := exists_view hs hcase (by simp)
    rw [Cursor.caseGroup, hview]
    refine of_advance ?_
    refine (ih.expression hs₁ (Nat.lt_trans h₁ hn) parent _ (by simp)).bind
      (Hung.refl s parent).next fun r₂ s₂ hs₂ hg₂ => ?_
    obtain ⟨classes, c₂, h₂⟩ := r₂
    exact bind_follows (expect_follows hs₂ _) hg₂ fun _ s₃ hs₃ hg₃ => .done hs₃ hg₃
  · next hdefault hcolon =>
    obtain ⟨span, c₁, h₁, _, c₂, h₂, hview, hview₁, hs₂⟩ :=
      exists_views hs hdefault hcolon (by simp) (by simp)
    rw [Cursor.caseGroup, hview]
    simp only [Cursor.accept?, hview₁, if_true]
    exact of_advance (of_advance (.done hs₂ (Hung.refl s parent).next.next))
  · next hcase hdefault =>
    -- a `default` without a colon belongs to a statement in both
    have hstatement := ih.statement hs hn parent
    rw [Cursor.caseGroup]
    split
    · next hview => exact (hcase (token_of_view hs hview)).elim
    · next c₁ h₁ hview =>
      have hcolon : c₁.current ≠ .colon := fun hcolon =>
        hdefault (token_of_view hs hview) ((peek_of_view hs hview).trans hcolon)
      rw [Cursor.accept?_eq_none hcolon]
      exact hstatement
    · exact hstatement

/-- All groups of a `switch` are hung below one block. -/
theorem switchBody_grafts (hs : s.place = c) (hn : c.remaining ≤ n) (parent : Nat) :
    s.Grafts s parent After.rest (fun r => [r.value]) c.switchBody (switchBody inner parent) := by
  rw [Cursor.switchBody_eq]
  refine braces_grafts hs (fun hs hd node => ?_) parent
  refine untilBrace_grafts Cursor.readsRow_caseGroups (fun hs he => ?_) hs (Nat.le_refl _)
  exact caseGroup_grafts ih hs (Nat.lt_of_le_of_lt he (Nat.lt_of_lt_of_le hd hn)) node

/-- Variables that a `for` statement declares are hung below a clause of their own; the classes of
an expression in their place are hung without one. -/
theorem forInitializer_grafts (hs : s.place = c) (hn : c.remaining < n) (parent : Nat)
    (opening : Span) :
    s.Grafts s parent From.rest From.value (c.forInitializer opening)
      (forInitializer inner parent opening) := by
  obtain rfl := hs
  rw [Cursor.forInitializer]
  rcases declarationHead_cases s Cursor.declaratorFollow with
    ⟨hhead, hrun⟩ | ⟨⟨⟨ms, type⟩, c₁, h₁⟩, p, -, hhead, hrun, hp, -⟩
  · rw [hhead]
    exact of_run_eq (bind_of_ok hrun _) (ih.expression rfl hn parent _ (by simp))
  · rw [hhead]
    refine of_run_eq (bind_of_ok hrun _) (grafts_of_addNode ?_)
    have hbase := (Hung.refl s parent).moved p
    refine follows_within (identifier_follows (place_added hp) _)
      (.refl _ (s.moved p).tree.size) rfl fun r₂ s₂ hs₂ hg₂ => ?_
    obtain ⟨⟨name, span⟩, c₂, h₂⟩ := r₂
    exact carried_node (declarators_grafts ih (c := c₂) hs₂ (by omega) _ ms type name span) hg₂
      hbase fun r => ⟨_, rfl, rfl, rfl⟩

/-- What stands between the parentheses of a `for` statement is hung below the node of the
statement. In a loop over a collection the collection belongs to the clause of the variable. -/
theorem forClauses_grafts (hs : s.place = c) (hn : c.remaining < n) (parent : Nat)
    (opening : Span) :
    s.Grafts s parent After.rest After.value (c.forClauses opening)
      (forClauses inner parent opening) := by
  obtain rfl := hs
  rw [Cursor.forClauses]
  rcases declarationHead_cases s [.colon] with
    ⟨hhead, hrun⟩ | ⟨⟨⟨ms, type⟩, c₁, h₁⟩, p, -, hhead, hrun, hp, -⟩
  · rw [hhead]
    refine of_run_eq (bind_of_ok hrun _) ?_
    -- the attempt left no trace, so the three clauses are read from where it began
    refine (forInitializer_grafts ih rfl hn parent opening).bind (.refl s parent)
      fun r₁ s₁ hs₁ hg₁ => ?_
    obtain ⟨initializer, c₁, h₁⟩ := r₁
    refine bind_follows (expect_follows hs₁ _) hg₁ fun r₂ s₂ hs₂ hg₂ => ?_
    obtain ⟨_, c₂, h₂⟩ := r₂
    refine (ih.expression (c := c₂) hs₂ (by omega) parent _ (by simp)).bind hg₂
      fun r₃ s₃ hs₃ hg₃ => ?_
    obtain ⟨condition, c₃, h₃⟩ := r₃
    refine bind_follows (expect_follows hs₃ _) hg₃ fun r₄ s₄ hs₄ hg₄ => ?_
    obtain ⟨_, c₄, h₄⟩ := r₄
    have hn₄ : c₄.remaining < n := Nat.lt_trans ((h₄.trans_le h₃).trans (h₂.trans_le h₁)) hn
    exact (ih.expression (c := c₄) hs₄ hn₄ parent _ (by simp)).carried hg₄
      fun r => ⟨_, rfl, rfl, rfl⟩
  · rw [hhead]
    refine of_run_eq (bind_of_ok hrun _) (grafts_of_addNode ?_)
    -- the node of the clause is added first, then its variable, then the classes of the collection
    have hbase := (Hung.refl s parent).moved p
    refine follows_within (identifier_follows (place_added hp) _)
      (.refl _ (s.moved p).tree.size) rfl fun r₂ s₂ hs₂ hg₂ => grafts_of_addNode ?_
    obtain ⟨⟨name, span⟩, c₂, h₂⟩ := r₂
    refine follows_within (expect_follows (place_added hs₂) _) (hg₂.node (.refl _ _)) rfl
      fun r₃ s₃ hs₃ hg₃ => ?_
    obtain ⟨_, c₃, h₃⟩ := r₃
    have hn₃ : c₃.remaining < n := Nat.lt_trans ((h₃.trans h₂).trans h₁) hn
    exact carried_node (ih.expression (c := c₃) hs₃ hn₃ _ _ (by simp)) hg₃ hbase
      fun r => ⟨_, rfl, rfl, rfl⟩

/-- The body of a `for` statement is hung beside its clauses. -/
theorem forRest_grafts (hs : s.place = c) (hn : c.remaining ≤ n) (parent : Nat) :
    s.Grafts s parent After.rest After.value c.forRest (forRest inner parent) := by
  rw [Cursor.forRest]
  refine bind_follows (expect_follows hs _) (.refl s parent) fun r₁ s₁ hs₁ hg₁ => ?_
  obtain ⟨opening, c₁, h₁⟩ := r₁
  refine (forClauses_grafts ih (c := c₁) hs₁ (by omega) parent opening).bind hg₁
    fun r₂ s₂ hs₂ hg₂ => ?_
  obtain ⟨clauses, c₂, h₂⟩ := r₂
  refine bind_follows (expect_follows hs₂ _) hg₂ fun r₃ s₃ hs₃ hg₃ => ?_
  obtain ⟨_, c₃, h₃⟩ := r₃
  have hn₃ : c₃.remaining < n := Nat.lt_of_lt_of_le ((h₃.trans h₂).trans h₁) hn
  exact (ih.statement (c := c₃) hs₃ hn₃ parent).carried hg₃ fun r => ⟨_, rfl, rfl, rfl⟩

/-- The clause of a handler is begun behind its first parenthesis, so its parameter and its block
are hung below a node that is there already. -/
theorem catchClause_grafts (hs : s.place = c) (hn : c.remaining ≤ n) (parent : Nat)
    (clause : Span) :
    s.Grafts s parent After.rest After.value (c.catchClause clause)
      (catchClause inner parent clause) := by
  rw [Cursor.catchClause, Cursor.catchParameter, bind_assoc]
  -- the clause is added behind its parenthesis; all that follows hangs below it
  refine bind_follows (expect_follows hs _) (.refl s parent) fun r₁ s₁ hs₁ hg₁ =>
    grafts_of_addNode ?_
  obtain ⟨_, c₁, h₁⟩ := r₁
  dsimp only
  rw [bind_assoc]
  refine follows_within (modifiers_follows (place_added hs₁) []) (.refl _ s₁.tree.size)
    hg₁.errors_eq fun r₂ s₂ hs₂ hg₂ => ?_
  obtain ⟨ms, c₂, h₂⟩ := r₂
  dsimp only
  rw [bind_assoc]
  refine follows_within (typeRef_follows hs₂) hg₂ hg₁.errors_eq fun r₃ s₃ hs₃ hg₃ => ?_
  obtain ⟨type, c₃, h₃⟩ := r₃
  dsimp only
  rw [bind_assoc]
  refine follows_within (catchAlternatives_follows hs₃) hg₃ hg₁.errors_eq
    fun r₄ s₄ hs₄ hg₄ => ?_
  obtain ⟨_, c₄, h₄⟩ := r₄
  dsimp only
  rw [bind_assoc]
  -- the variable is added when its name is read, between the types and the block
  refine follows_within (identifier_follows hs₄ _) hg₄ hg₁.errors_eq
    fun r₅ s₅ hs₅ hg₅ => grafts_of_addNode ?_
  obtain ⟨⟨name, span⟩, c₅, h₅⟩ := r₅
  dsimp only
  rw [bind_assoc]
  refine follows_within (expect_follows (place_added hs₅) _) (hg₅.node (.refl _ _))
    hg₁.errors_eq fun r₆ s₆ hs₆ hg₆ => ?_
  obtain ⟨_, c₆, h₆⟩ := r₆
  have hn₆ : c₆.remaining ≤ n := by omega
  dsimp only
  rw [pure_bind]
  exact carried_node (block_grafts ih (c := c₆) hs₆ hn₆ _) hg₆ hg₁ fun r => ⟨_, rfl, rfl, rfl⟩

/-- The clauses of the handlers are hung beside each other. -/
theorem catches_grafts (hs : s.place = c) (hn : c.remaining ≤ n) (parent : Nat) :
    s.Grafts s parent From.rest From.value c.catches (catches inner parent ()) := by
  refine loop_grafts (fun _ => From.rest) (fun _ => From.value) (fun c _ => c.catches)
    (fun c s _ again hs hn hagain => of_current ?_) hs hn ()
  rw [Cursor.catches_eq]
  rcases accept?_cases hs (t := .keyword .catch) (by simp) with
    ⟨htoken, ⟨clause, c₁, h₁⟩, haccept, hs₁, hspan⟩ | ⟨htoken, haccept⟩
  · rw [haccept, if_pos htoken]
    refine of_advance ?_
    rw [hspan]
    refine (catchClause_grafts ih hs₁ (Nat.le_trans h₁.le hn) parent clause).bind
      (Hung.refl s parent).next fun r₂ s₂ hs₂ hg₂ => ?_
    exact (hagain r₂.rest s₂ () hs₂ (r₂.behind.trans h₁)).carried hg₂ fun r => ⟨_, rfl, rfl, rfl⟩
  · rw [haccept, if_neg htoken]
    exact .done hs (.refl s parent)

/-- Arguments are read where a parenthesis stands. -/
theorem optionalArguments_grafts (hs : s.place = c) (hn : c.remaining ≤ n) (parent : Nat) :
    s.Grafts s parent From.rest From.value c.optionalArguments
      (whenAt .leftParen (arguments inner parent)) :=
  whenAt_grafts hs fun _ => (arguments_grafts ih hs hn parent).toFrom

/-- A body is read where a brace stands. -/
theorem optionalBody_grafts (hs : s.place = c) (hn : c.remaining < n) (owner : Nat) :
    s.Grafts s owner From.rest From.value c.optionalBody
      (whenAt .leftBrace (inner.typeBody owner)) :=
  whenAt_grafts hs fun _ =>
    (ih.typeBody hs hn owner).carried (.refl s owner) fun _ => ⟨_, rfl, rfl, rfl⟩

/-- The blocks and handlers of a `try` statement are hung beside each other. -/
theorem tryRest_grafts (hs : s.place = c) (hn : c.remaining ≤ n) (parent : Nat) :
    s.Grafts s parent After.rest After.value c.tryRest (tryRest inner parent) := by
  rw [Cursor.tryRest_eq]
  refine (optionalArguments_grafts ih hs hn parent).bind (.refl s parent) fun r₁ s₁ hs₁ hg₁ => ?_
  obtain ⟨resources, c₁, h₁⟩ := r₁
  refine (block_grafts ih (c := c₁) hs₁ (Nat.le_trans h₁ hn) parent).bind hg₁
    fun r₂ s₂ hs₂ hg₂ => ?_
  obtain ⟨body, c₂, h₂⟩ := r₂
  have hn₂ : c₂.remaining ≤ n := by omega
  refine (catches_grafts ih (c := c₂) hs₂ hn₂ parent).bind hg₂ fun r₃ s₃ hs₃ hg₃ => ?_
  obtain ⟨handlers, c₃, h₃⟩ := r₃
  dsimp only
  rcases whenAccepted_cases hs₃ (t := .keyword .finally) (by simp) (block inner parent) with
    ⟨⟨_, c₄, h₄⟩, haccept, hs₄, hrun⟩ | ⟨haccept, hrun⟩
  · rw [haccept]
    have hn₄ : c₄.remaining ≤ n := Nat.le_trans (h₄.trans_le h₃).le hn₂
    exact of_run_eq hrun ((block_grafts ih (c := c₄) hs₄ hn₄ parent).carried hg₃.next
      fun r => ⟨_, rfl, rfl, rfl⟩)
  · rw [haccept]
    exact of_run_eq hrun (.done hs₃ hg₃)

/-! ## Members -/

/-- A constructor is added behind its name; its parameters and its block are hung below it. -/
theorem constructor_grafts (hs : s.place = c) (hn : c.remaining ≤ n) (body : Nat)
    (ms : List Modifier) :
    s.Grafts s body After.rest (fun r => [r.value]) (c.constructor ms)
      (constructor inner body ms) := by
  rw [Cursor.constructor]
  refine bind_follows (identifier_follows hs _) (.refl s body) fun r₁ s₁ hs₁ hg₁ =>
    grafts_of_addNode ?_
  obtain ⟨⟨name, span⟩, c₁, h₁⟩ := r₁
  refine within (parameters_grafts (place_added hs₁) _) (.refl _ s₁.tree.size) hg₁.errors_eq
    fun r₂ s₂ hs₂ hg₂ => ?_
  obtain ⟨ps, c₂, h₂⟩ := r₂
  refine follows_within (header_follows hs₂) hg₂ hg₁.errors_eq fun r₃ s₃ hs₃ hg₃ => ?_
  obtain ⟨_, c₃, h₃⟩ := r₃
  exact carried_node (block_grafts ih (c := c₃) hs₃ (by omega) _) hg₃ hg₁
    fun r => ⟨_, rfl, rfl, rfl⟩

/-- Whatever stands in front of the body is passed over; the body or the classes of a default value
are hung below the method. -/
theorem methodBody_grafts (hs : s.place = c) (hn : c.remaining ≤ n) (method : Nat) :
    s.Grafts s method After.rest After.value c.methodBody (methodBody inner method ()) := by
  refine loop_grafts (fun _ => After.rest) (fun _ => After.value) (fun c _ => c.methodBody)
    (fun c s _ again hs hn hagain => of_current ?_) hs hn ()
  have hg := Hung.refl s method
  split
  · next hbrace =>
    rw [Cursor.methodBody_of_leftBrace ((token_eq hs).symm.trans hbrace)]
    exact (block_grafts ih hs hn method).carried hg fun r => ⟨_, rfl, rfl, rfl⟩
  · next hsemicolon =>
    obtain ⟨_, c₁, h₁, hview, hs₁⟩ := exists_view hs hsemicolon (by simp)
    rw [Cursor.methodBody_of_semicolon hview]
    exact of_advance (.done hs₁ hg.next)
  · next hdefault =>
    obtain ⟨_, c₁, h₁, hview, hs₁⟩ := exists_view hs hdefault (by simp)
    rw [Cursor.methodBody_of_default hview]
    refine of_advance ?_
    refine (ih.expression hs₁ (Nat.lt_of_lt_of_le h₁ hn) method _ (by simp)).bind hg.next
      fun r₂ s₂ hs₂ hg₂ => ?_
    exact bind_follows (expect_follows hs₂ _) hg₂ fun _ s₃ hs₃ hg₃ => .done hs₃ hg₃
  · next heof =>
    rw [Cursor.methodBody_of_eof ((token_eq hs).symm.trans heof)]
    exact .failed hs rfl _
  · next hbrace hsemicolon hdefault heof =>
    -- any other token is a clause of the heading and is passed
    obtain ⟨_, c₁, h₁, hview, hs₁⟩ := exists_view hs rfl heof
    rw [Cursor.methodBody_of_view hview
      fun h => h.elim hbrace fun h => h.elim hsemicolon hdefault]
    exact of_advance ((hagain c₁ _ () hs₁ h₁).carried hg.next fun r => ⟨_, rfl, rfl, rfl⟩)

/-- A method is added behind its name, in front of its parameters. Fields are hung below the body of
the type. -/
theorem methodOrFields_grafts (hs : s.place = c) (hn : c.remaining ≤ n) (body : Nat)
    (ms : List Modifier) :
    s.Grafts s body After.rest After.value (c.methodOrFields ms)
      (methodOrFields inner body ms) := by
  rw [Cursor.methodOrFields]
  refine bind_follows (typeRef_follows hs) (.refl s body) fun r₁ s₁ hs₁ hg₁ => ?_
  obtain ⟨type, c₁, h₁⟩ := r₁
  refine bind_follows (identifier_follows hs₁ _) hg₁ fun r₂ s₂ hs₂ hg₂ => of_current ?_
  obtain ⟨⟨name, span⟩, c₂, h₂⟩ := r₂
  rw [token_eq hs₂]
  dsimp only
  split
  · refine grafts_of_addNode ?_
    -- the method is added before its parameters are read
    refine within (parameters_grafts (place_added hs₂) _) (.refl _ s₂.tree.size) hg₂.errors_eq
      fun r₃ s₃ hs₃ hg₃ => ?_
    obtain ⟨ps, c₃, h₃⟩ := r₃
    exact carried_node (methodBody_grafts ih (c := c₃) hs₃ (by omega) _) hg₃ hg₂
      fun r => ⟨_, rfl, rfl, rfl⟩
  · refine (declarators_grafts ih (c := c₂) hs₂ (by omega) body ms type name span).bind hg₂
      fun r₃ s₃ hs₃ hg₃ => ?_
    obtain ⟨fields, c₃, h₃⟩ := r₃
    exact bind_follows (expect_follows hs₃ _) hg₃ fun _ s₄ hs₄ hg₄ => .done hs₄ hg₄

/-- A constant of an enum is added behind its name; the classes in its arguments and its body are
hung below it. -/
theorem enumConstant_grafts (hs : s.place = c) (hn : c.remaining ≤ n) (body : Nat) :
    s.Grafts s body After.rest (fun r => [r.value]) c.enumConstant (enumConstant inner body) := by
  rw [Cursor.enumConstant_eq]
  refine bind_follows (modifiers_follows hs []) (.refl s body) fun r₁ s₁ hs₁ hg₁ => ?_
  obtain ⟨_, c₁, h₁⟩ := r₁
  refine bind_follows (identifier_follows hs₁ _) hg₁ fun r₂ s₂ hs₂ hg₂ => grafts_of_addNode ?_
  obtain ⟨⟨name, span⟩, c₂, h₂⟩ := r₂
  refine within (optionalArguments_grafts ih (c := c₂) (place_added hs₂) (by omega) _)
    (.refl _ s₂.tree.size) hg₂.errors_eq fun r₃ s₃ hs₃ hg₃ => ?_
  obtain ⟨arguments, c₃, h₃⟩ := r₃
  exact carried_node (optionalBody_grafts ih (c := c₃) hs₃ (by omega) _) hg₃ hg₂
    fun r => ⟨_, rfl, rfl, rfl⟩

/-- A type is added behind its heading, in front of its body. -/
theorem typeDeclaration_grafts (hs : s.place = c) (hn : c.remaining ≤ n) (parent : Nat)
    (ms : List Modifier) :
    s.Grafts s parent After.rest (fun r => [r.value]) (c.typeDeclaration ms)
      (typeDeclaration inner parent ms) := by
  rw [Cursor.typeDeclaration]
  refine bind_follows (typeHeading_follows hs ms) (.refl s parent) fun r₁ s₁ hs₁ hg₁ =>
    grafts_of_addNode ?_
  obtain ⟨⟨kind, span⟩, c₁, h₁⟩ := r₁
  have hn₁ : c₁.remaining < n := by omega
  cases kind with
  | enumDef =>
    exact carried_node (ih.enumBody (c := c₁) (place_added hs₁) hn₁ _) (.refl _ _) hg₁
      fun r => ⟨_, rfl, rfl, rfl⟩
  | _ =>
    exact carried_node (ih.typeBody (c := c₁) (place_added hs₁) hn₁ _) (.refl _ _) hg₁
      fun r => ⟨_, rfl, rfl, rfl⟩

/-- What kind of member it is can be told behind the modifiers, before anything is added. -/
theorem memberDeclaration_grafts (hs : s.place = c) (hn : c.remaining ≤ n) (body : Nat) :
    s.Grafts s body After.rest After.value c.memberDeclaration (memberDeclaration inner body) := by
  rw [Cursor.memberDeclaration]
  refine bind_follows (modifiers_follows hs []) (.refl s body) fun r₁ s₁ hs₁ hg₁ => ?_
  obtain ⟨ms, c₁, h₁⟩ := r₁
  refine of_get ?_
  rw [startsType_eq hs₁]
  dsimp only
  split
  · exact (typeDeclaration_grafts ih (c := c₁) hs₁ (Nat.le_trans h₁ hn) body ms).carried hg₁
      fun r => ⟨_, rfl, rfl, rfl⟩
  · refine bind_follows (typeArguments?_follows hs₁) hg₁ fun r₂ s₂ hs₂ hg₂ =>
      of_current (of_peek ?_)
    obtain ⟨_, c₂, h₂⟩ := r₂
    have hn₂ : c₂.remaining ≤ n := by omega
    have hconstructor := constructor_grafts ih (c := c₂) hs₂ hn₂ body ms
    have hmember := methodOrFields_grafts ih (c := c₂) hs₂ hn₂ body ms
    rw [token_eq hs₂, peek_eq hs₂]
    dsimp only
    -- a name with a parenthesis behind it is a constructor, anything else is none
    generalize c₂.current = first, c₂.following = second
    cases first with
    | identifier name =>
      cases second with
      | leftParen => exact hconstructor.carried hg₂ fun r => ⟨_, rfl, rfl, rfl⟩
      | _ => exact hmember.carried hg₂ fun r => ⟨_, rfl, rfl, rfl⟩
    | _ => exact hmember.carried hg₂ fun r => ⟨_, rfl, rfl, rfl⟩

/-- An initializer is added in front of its block; other members are told apart behind their
modifiers. -/
theorem member_grafts (hs : s.place = c) (hn : c.remaining ≤ n) (body : Nat) :
    s.Grafts s body After.rest After.value c.member (member inner body) := by
  refine of_current (of_peek ?_)
  have hg := Hung.refl s body
  split
  · next hsemicolon =>
    obtain ⟨_, c₁, h₁, hview, hs₁⟩ := exists_view hs hsemicolon (by simp)
    rw [Cursor.member, hview]
    exact of_advance (.done hs₁ hg.next)
  · next hstatic hbrace =>
    obtain ⟨span, c₁, h₁, _, c₂, h₂, hview, hview₁, -⟩ :=
      exists_views hs hstatic hbrace (by simp) (by simp)
    rw [Cursor.member, hview]
    dsimp only
    rw [if_pos (Cursor.current_of_view hview₁)]
    refine of_advance ?_
    rw [span_of_view hs hview]
    refine grafts_of_addNode ?_
    -- the initializer is added at the stretch of `static`, its block at the brace
    have hs₁ := next_of_view hs hview
    exact carried_node (block_grafts ih (place_added hs₁) (Nat.le_trans h₁.le hn) _) (.refl _ _)
      hg.next fun r => ⟨_, rfl, rfl, rfl⟩
  · next hbrace =>
    obtain ⟨span, c₁, h₁, hview, -⟩ := exists_view hs hbrace (by simp)
    have hspan : c.span = span := by rw [← span_of_view hs hview, s.lexeme_eq, hs]
    rw [Cursor.member, hview]
    refine grafts_of_currentSpan hs (grafts_of_addNode ?_)
    rw [hspan]
    exact carried_node (block_grafts ih (place_added hs) hn _) (.refl _ _) hg
      fun r => ⟨_, rfl, rfl, rfl⟩
  · next hsemicolon hbrace hstatic =>
    -- `static` in front of anything but a brace is a modifier
    have hdeclaration := memberDeclaration_grafts ih hs hn body
    rw [Cursor.member]
    split
    · next hview => exact (hsemicolon (token_of_view hs hview)).elim
    · next hview => exact (hbrace (token_of_view hs hview)).elim
    · next c₁ h₁ hview =>
      have hcurrent : c₁.current ≠ .leftBrace := fun hcurrent =>
        hstatic (token_of_view hs hview) ((peek_of_view hs hview).trans hcurrent)
      rw [if_neg hcurrent]
      exact hdeclaration
    · exact hdeclaration

/-! ## Type bodies -/

/-- Members are hung below their body in their order. -/
theorem members_grafts (hs : s.place = c) (hn : c.remaining ≤ n) (body : Nat) :
    s.Grafts s body From.rest From.value c.members (members inner body) :=
  untilBrace_grafts Cursor.readsRow_members (fun hs hn => member_grafts ih hs hn body) hs hn

/-- Constants and members of an enum are hung below one body. -/
theorem enumConstants_grafts (hs : s.place = c) (hn : c.remaining ≤ n) (body : Nat) :
    s.Grafts s body From.rest From.value c.enumConstants (enumConstants inner body ()) := by
  refine loop_grafts (fun _ => From.rest) (fun _ => From.value) (fun c _ => c.enumConstants)
    (fun c s _ again hs hn hagain => of_current ?_) hs hn ()
  have hg := Hung.refl s body
  split
  · next hsemicolon =>
    obtain ⟨_, c₁, h₁, hview, hs₁⟩ := exists_view hs hsemicolon (by simp)
    rw [Cursor.enumConstants, hview]
    refine of_advance ?_
    exact (members_grafts ih hs₁ (Nat.le_trans h₁.le hn) body).carried hg.next
      fun r => ⟨_, rfl, rfl, rfl⟩
  · next hbrace =>
    obtain ⟨_, c₁, h₁, hview, -⟩ := exists_view hs hbrace (by simp)
    rw [Cursor.enumConstants, hview]
    exact .done hs hg
  · next hcomma =>
    obtain ⟨_, c₁, h₁, hview, hs₁⟩ := exists_view hs hcomma (by simp)
    rw [Cursor.enumConstants, hview]
    exact of_advance ((hagain c₁ _ () hs₁ h₁).carried hg.next fun r => ⟨_, rfl, rfl, rfl⟩)
  · next hsemicolon hbrace hcomma =>
    rw [Cursor.enumConstants]
    split
    · next hview => exact (hsemicolon (token_of_view hs hview)).elim
    · next hview => exact (hbrace (token_of_view hs hview)).elim
    · next hview => exact (hcomma (token_of_view hs hview)).elim
    · refine (enumConstant_grafts ih hs hn body).bind hg fun r₁ s₁ hs₁ hg₁ => ?_
      exact (hagain r₁.rest s₁ () hs₁ r₁.behind).carried hg₁ fun r => ⟨_, rfl, rfl, rfl⟩

/-- A body is hung below the type or constant that it belongs to, with its members in it. -/
theorem typeBody_grafts (hs : s.place = c) (hn : c.remaining ≤ n) (owner : Nat) :
    s.Grafts s owner After.rest (fun r => [r.value]) c.typeBody (typeBody inner owner) := by
  rw [Cursor.typeBody_eq]
  exact braces_grafts hs (fun hs hd => members_grafts ih hs (Nat.le_trans hd.le hn)) owner

/-- The body of an enum is hung with its constants and members in it. -/
theorem enumBody_grafts (hs : s.place = c) (hn : c.remaining ≤ n) (owner : Nat) :
    s.Grafts s owner After.rest (fun r => [r.value]) c.enumBody (enumBody inner owner) := by
  rw [Cursor.enumBody_eq]
  exact braces_grafts hs (fun hs hd => enumConstants_grafts ih hs (Nat.le_trans hd.le hn)) owner

/-! ## Statements and what they hand over to -/

/-- What a statement hands over to hangs below a node what the grammar reads. -/
theorem callees_hangFrom (hn : c.remaining ≤ n) : (callees inner).HangFrom c where
  block hs hd := block_grafts ih hs (Nat.le_trans hd hn)
  statement hs hd := ih.statement hs (Nat.lt_of_lt_of_le hd hn)
  arguments hs hd := arguments_grafts ih hs (Nat.le_trans hd.le hn)
  switchBody hs hd := switchBody_grafts ih hs (Nat.le_trans hd.le hn)
  forRest hs hd := forRest_grafts ih hs (Nat.le_trans hd.le hn)
  tryRest hs hd := tryRest_grafts ih hs (Nat.le_trans hd.le hn)
  expression hs hd := expression_grafts ih (by simp) hs (Nat.le_trans hd hn)
  declarators hs hd := declarators_grafts ih hs (Nat.le_trans hd.le hn)
  typeDeclaration hs hd := typeDeclaration_grafts ih hs (Nat.le_trans hd hn)

/-- A statement hangs what the grammar reads, whatever was tried in it and put back. -/
theorem statement_grafts (hs : s.place = c) (hn : c.remaining ≤ n) (parent : Nat) :
    s.Grafts s parent After.rest After.value c.statement (statement inner parent) :=
  Stateful.statement_grafts (callees_hangFrom ih hn) hs parent

end

/-- With `n` calls inside of each other the readers come through wherever fewer than `n` tokens are
left: each call is made behind a token. -/
theorem readers_hangsBelow (whole : Cursor) (n : Nat) : (readers whole n).HangsBelow n := by
  induction n with
  | zero =>
    exact
      { typeBody := fun _ hn => absurd hn (Nat.not_lt_zero _)
        enumBody := fun _ hn => absurd hn (Nat.not_lt_zero _)
        statement := fun _ hn => absurd hn (Nat.not_lt_zero _)
        expression := fun _ hn => absurd hn (Nat.not_lt_zero _) }
  | succ n ih =>
    exact
      { typeBody := fun hs hn => typeBody_grafts ih hs (Nat.le_of_lt_succ hn)
        enumBody := fun hs hn => enumBody_grafts ih hs (Nat.le_of_lt_succ hn)
        statement := fun hs hn => statement_grafts ih hs (Nat.le_of_lt_succ hn)
        expression := fun hs hn parent _ hterminators =>
          expression_grafts ih hterminators hs (Nat.le_of_lt_succ hn) parent }

end Builder

end FieldShadow
