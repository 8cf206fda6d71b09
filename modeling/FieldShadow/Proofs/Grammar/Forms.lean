import FieldShadow.Grammar.Body
import FieldShadow.Proofs.Grammar.View

/-!
# The forms of statements

Most statements are a word and a row of readers behind it: a `while` loop is its condition and its
body, a `return` is an expression and a semicolon. Which row it is can be told from the word and the
token behind it. What is left are blocks, types that are declared in a block, and everything else
that `localOrExpression` reads.

The reader of statements reads the form of what stands at the cursor (`statement_eq`). So what is to
be known of all statements is shown for each step that a row is made of, and for a row by induction.
-/

namespace FieldShadow.Cursor

/-- A step in a statement, behind its first word. -/
inductive StatementStep where
  | skip
  | mark (m : Mark)
  | arguments
  | statement
  | otherwise
  | block
  | switchBody
  | forRest
  | tryRest
  | expression

/-- What the first two tokens of a statement tell about it. -/
inductive StatementForm where
  | block
  | row (steps : List StatementStep)
  | localClass
  | localOrExpression

/-- The form of a statement that begins with a token in front of another. -/
def statementForm (first second : Token) : StatementForm :=
  match first, second with
  | .leftBrace, _ => .block
  | .semicolon, _ => .row []
  | .keyword .if, _ => .row [.arguments, .statement, .otherwise]
  | .keyword .while, _ => .row [.arguments, .statement]
  | .keyword .do, _ => .row [.statement, .mark .doWhile, .arguments, .mark .doWhileEnd]
  | .modifier .synchronized, .leftParen => .row [.arguments, .block]
  | .keyword .switch, _ => .row [.arguments, .switchBody]
  | .keyword .for, _ => .row [.forRest]
  | .keyword .try, _ => .row [.tryRest]
  | .keyword .return, _ | .keyword .throw, _ | .keyword .break, _ | .keyword .continue, _
  | .keyword .assert, _ => .row [.expression, .mark .statementEnd]
  -- a label
  | .identifier _, .colon => .row [.skip, .statement]
  | .keyword .class_, _ | .keyword .interface, _ | .keyword .enum, _ | .at, _
  | .modifier .final, _ | .modifier .abstract, _ | .modifier .static, _
  | .modifier .strictfp, _ => .localClass
  | _, _ => .localOrExpression

/-- What is read and nothing but one outline. -/
def After.single {c : Cursor} (r : After c Outline) : After c (List Outline) :=
  ⟨[r.value], r.rest, r.behind⟩

/-- What is read from a later place. -/
def From.after {c d : Cursor} {α : Type} (r : From d α) (h : d.Behind c) : After c α :=
  ⟨r.value, r.rest, r.notBefore.trans_lt h⟩

/-- What is read behind what moved on is not before the start of both. -/
theorem After.notBefore_start {c : Cursor} {α β : Type} {r : After c α} (r' : After r.rest β) :
    r'.rest.NotBefore c :=
  r'.notBefore.of_behind r.behind

namespace StatementStep

/-- Reads what a step stands for. -/
def read (c : Cursor) : StatementStep → Except SyntaxError (From c (List Outline))
  | skip => .ok ⟨[], c.skip, c.notBefore_skip⟩
  | mark m => do
    let r ← c.expect m
    return ⟨[], r.rest, r.notBefore⟩
  | arguments => do return (← c.arguments).toFrom
  | statement => do return (← c.statement).toFrom
  | otherwise =>
    match c.accept? (.keyword .else) with
    | some r₁ => do
      let r₂ ← r₁.rest.statement
      return ⟨r₂.value, r₂.rest, After.notBefore_start r₂⟩
    | none => return c.stay []
  | block => do return (← c.block).single.toFrom
  | switchBody => do return (← c.switchBody).single.toFrom
  | forRest => do return (← c.forRest).toFrom
  | tryRest => do return (← c.tryRest).toFrom
  | expression => c.expression [.semicolon] 0

/-- Reads one step behind the other. -/
def readAll (c : Cursor) : List StatementStep → Except SyntaxError (From c (List Outline))
  | [] => return c.stay []
  | step :: steps => do
    let r₁ ← step.read c
    let r₂ ← readAll r₁.rest steps
    return ⟨r₁.value ++ r₂.value, r₂.rest, r₂.notBefore.trans r₁.notBefore⟩

end StatementStep

/-- Reads the declaration of a local class, or else what `localOrExpression` reads. -/
def localClass (c : Cursor) : Except SyntaxError (After c (List Outline)) := do
  let ⟨ms, c₁, h₁⟩ ← c.modifiers
  if c₁.startsType then
    let ⟨type, c₂, h₂⟩ ← c₁.typeDeclaration ms
    return ⟨[type], c₂, h₂.trans_le h₁⟩
  else c.localOrExpression

/-- Reads a statement of a form. -/
def StatementForm.read (c : Cursor) : StatementForm → Except SyntaxError (After c (List Outline))
  | block => do return (← c.block).single
  | row steps =>
    match c.view with
    | .stop => .error (c.fault (.more .block))
    | .token _ _ c₁ h₁ => do return (← StatementStep.readAll c₁ steps).after h₁
  | localClass => c.localClass
  | localOrExpression => c.localOrExpression

open StatementStep in
/-- A statement whose form is a row of steps is read step by step behind its first token. -/
theorem statement_eq_row {c c₁ : Cursor} {t : Token} {s : Span} {h₁ : c₁.Behind c}
    (hview : c.view = .token t s c₁ h₁) {steps : List StatementStep} {second : Token}
    (hform : statementForm t second = .row steps) :
    (statementForm c.current second).read c = (do return (← readAll c₁ steps).after h₁) := by
  rw [current_of_view hview, hform, StatementForm.read, hview]

/-- Without a parenthesis behind it the word is a modifier. -/
theorem statementForm_synchronized {second : Token} (h : second ≠ .leftParen) :
    statementForm (.modifier .synchronized) second = .localOrExpression := by
  cases second <;> first | rfl | exact absurd rfl h

/-- A name is a label exactly if a colon follows it. -/
theorem statementForm_identifier {name : String} {second : Token} (h : second ≠ .colon) :
    statementForm (.identifier name) second = .localOrExpression := by
  cases second <;> first | rfl | exact absurd rfl h

/-- The reader of statements reads the form of what stands at the cursor. -/
theorem statement_eq (c : Cursor) :
    c.statement = (statementForm c.current c.following).read c := by
  rw [statement]
  split
  case h_1 hview =>
    rw [current_of_view hview]
    rfl
  case h_2 hview =>
    rw [statement_eq_row hview rfl]
    rfl
  case h_3 c₁ h₁ hview =>
    rw [statement_eq_row hview rfl]
    simp only [StatementStep.readAll, StatementStep.read, bind_assoc, pure_bind, List.append_nil,
      stay]
    refine congrArg _ (funext fun r₂ => congrArg _ (funext fun r₃ => ?_))
    dsimp only [After.toFrom]
    cases r₃.rest.accept? (.keyword .else) with
    | none => simp [From.after]
    | some r₄ =>
      simp only [bind_assoc, pure_bind, ← List.append_assoc]
      rfl
  case h_6 c₁ h₁ hview =>
    rw [following_of_view hview]
    split
    · next hparen =>
      rw [statement_eq_row hview (by rw [hparen]; rfl)]
      simp only [StatementStep.readAll, StatementStep.read, bind_assoc, pure_bind, List.append_nil,
        stay]
      rfl
    · next hparen =>
      rw [current_of_view hview, statementForm_synchronized hparen]
      rfl
  case h_15 c₁ h₁ hview =>
    rw [following_of_view hview]
    by_cases hcolon : c₁.current = .colon
    · obtain ⟨s, c₂, h₂, hview₁⟩ := exists_view_of_current hcolon (by simp)
      have haccept : c₁.accept? .colon = some ⟨s, c₂, h₂⟩ := by simp [accept?, hview₁]
      have hskip : c₂ = c₁.skip := skip_of_view hview₁
      obtain rfl := hskip
      rw [statement_eq_row hview (by rw [hcolon]; rfl), haccept]
      simp only [StatementStep.readAll, StatementStep.read, bind_assoc, pure_bind, List.append_nil,
        stay]
      rfl
    · rw [accept?_eq_none hcolon, current_of_view hview, statementForm_identifier hcolon]
      rfl
  case h_24 =>
    have hform : statementForm c.current c.following = .localOrExpression := by
      cases hview : c.view with
      | stop => rw [current_of_view_stop hview]; rfl
      | token t s c₁ h₁ =>
        rw [current_of_view hview]
        -- a form of its own belongs to a token that was told apart before
        unfold statementForm
        split
        all_goals
          first
          | rfl
          | exact absurd hview (by apply_assumption)
    rw [hform]
    rfl
  all_goals
    next hview =>
    first
    | rw [current_of_view hview]; rfl
    | rw [statement_eq_row hview rfl]
      simp only [StatementStep.readAll, StatementStep.read, bind_assoc, pure_bind, List.append_nil,
        List.nil_append, stay]
      rfl

end FieldShadow.Cursor
