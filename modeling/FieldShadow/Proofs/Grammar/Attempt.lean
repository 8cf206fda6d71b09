import FieldShadow.Proofs.Grammar.Stateful
import FieldShadow.Proofs.SyntaxTree.Embedding

/-!
# Attempts that leave no trace

A parser with a state tries three things and puts its index back if they are not there: the heading
of a variable declaration, the modifiers of a local type, and a primitive type that a class literal
begins with. What it reads in between leaves no node and no error behind, so going back restores the
state (`leaves_no_trace`). The readers that a statement hands over to are left open (`Callees`); if
they are those of the grammar, so is the statement (`statement_grafts`).

## Shape of the argument

What an attempt comes to is computed once (`declarationHead_cases`, `localType_cases`,
`primitiveStart_cases`, `localOrExpression_cases`): either it moves the index behind what was tried,
or the state is the one that it began with. Afterwards no proof looks into an attempt again.

A statement is told apart by two tokens, as it is in the grammar (`statementForm_of_typeStarts`), so
the long list of its cases is one function of its form (`statement_eq_statementOf`). A form is a row
of steps, each of them a reader of its own, and a row of steps grafts what its steps graft
(`takeSteps_grafts`). That leaves one lemma for each kind of step (`takeStep_grafts`).

`GraftOutcome` says of a run what is wanted of it: below a node it has hung the outlines that the
grammar gives, and it stands behind them, or it has failed as the grammar does. It is a statement
about runs and not about actions, so that it can be asked of what is left of a loop.
-/

namespace FieldShadow

namespace Stateful

open State

open Cursor (After From StatementForm StatementStep StaysIn declaratorFollow statementForm)

variable {whole : Cursor} {ρ σ α : Type}

/-! ## Attempts -/

/-- What an action comes to, with its error as a value. Nothing is taken back. -/
def attempt (m : Action whole α) : Action whole (Except SyntaxError α) :=
  fun s => (m s).map fun (a, s') => (.ok a, s')

/-- Reads the modifiers and the type of a variable declaration. -/
def heading : Action whole (List Modifier × TypeRef) := do
  let ms ← modifiers []
  let type ← typeRef
  return (ms, type)

/-- Whether the name of a variable and one of the tokens `follow` come next. -/
def State.namesVariable (s : State whole) (follow : List Token) : Bool :=
  match s.lexeme.token with
  | .identifier _ => follow.contains (s.peek 1)
  | _ => false

/-- The modifiers and the type of a variable declaration, if its name and one of the tokens
`follow` stand behind them. Anything else puts the index back. -/
def declarationHead (follow : List Token) : Action whole (Option (List Modifier × TypeRef)) := do
  let checkpoint := (← get).position
  match ← attempt heading with
  | .ok head =>
    if (← get).namesVariable follow then return some head
    else
      rewind checkpoint
      return none
  | .error _ =>
    rewind checkpoint
    return none

/-- Refuses a statement that begins with a primitive type and is no declaration; in front of a dot
the index is put back. -/
def primitiveStart : Action whole Unit := do
  match ← current with
  | .identifier name =>
    if TypeRef.primitiveNames.contains name then
      let checkpoint := (← get).position
      let _ ← typeRef
      if (← current) = .dot then rewind checkpoint
      else
        let _ ← identifier .variable
        fail .localVariable
  | _ => return ()

/-! ## Statements -/

/-- The readers that a statement hands over to. Each hangs what it reads below the node that it is
given. -/
structure Callees (whole : Cursor) where
  block (parent : Nat) : Action whole Unit
  statement (parent : Nat) : Action whole Unit
  arguments (parent : Nat) : Action whole Unit
  switchBody (parent : Nat) : Action whole Unit
  forRest (parent : Nat) : Action whole Unit
  tryRest (parent : Nat) : Action whole Unit
  expression (parent : Nat) (terminators : List Token) : Action whole Unit
  declarators (parent : Nat) (ms : List Modifier) (type : TypeRef) (name : String) (span : Span) :
    Action whole Unit
  typeDeclaration (parent : Nat) (ms : List Modifier) : Action whole Unit

variable (callees : Callees whole) (parent : Nat)

/-- Reads the variables of a local declaration behind its heading. -/
def localDeclaration (ms : List Modifier) (type : TypeRef) : Action whole Unit := do
  let (name, span) ← identifier .variable
  callees.declarators parent ms type name span
  let _ ← expect .localEnd

/-- Passes an expression and the semicolon behind it. -/
def expressionStatement : Action whole Unit := do
  callees.expression parent [.semicolon]
  let _ ← expect .expressionEnd

/-- Reads a declaration of local variables, or passes an expression statement. -/
def localOrExpression : Action whole Unit := do
  match ← declarationHead declaratorFollow with
  | some (ms, type) => localDeclaration callees parent ms type
  | none =>
    primitiveStart
    expressionStatement callees parent

/-- Whether a type declaration begins with a token in front of another. -/
def startsTypeBy (first second : Token) : Bool :=
  match first with
  | .keyword .class_ | .keyword .interface | .keyword .enum => true
  | .at => second == .keyword .interface
  | _ => false

def State.startsType (s : State whole) : Bool :=
  startsTypeBy s.lexeme.token (s.peek 1)

/-- The tokens that a local type may begin with. What is none is read again from its first token. -/
def typeStarts : List Token :=
  [.keyword .class_, .keyword .interface, .keyword .enum, .modifier .final, .modifier .abstract,
    .modifier .static, .modifier .strictfp, .at]

/-- Reads the declaration of a local type behind its modifiers; without one the modifiers are put
back. -/
def localType : Action whole Unit := do
  let checkpoint := (← get).position
  let ms ← modifiers []
  if (← get).startsType then callees.typeDeclaration parent ms
  else
    rewind checkpoint
    localOrExpression callees parent

/-- Reads a statement that begins with a token in front of another. -/
def statementBy (first second : Token) : Action whole Unit :=
  match first, second with
  | .leftBrace, _ => callees.block parent
  | .semicolon, _ => do
    let _ ← advance
  | .keyword .if, _ => do
    let _ ← advance
    callees.arguments parent
    callees.statement parent
    if (← current) = .keyword .else then
      let _ ← advance
      callees.statement parent
  | .keyword .while, _ => do
    let _ ← advance
    callees.arguments parent
    callees.statement parent
  | .keyword .do, _ => do
    let _ ← advance
    callees.statement parent
    let _ ← expect .doWhile
    callees.arguments parent
    let _ ← expect .doWhileEnd
  | .modifier .synchronized, .leftParen => do
    let _ ← advance
    callees.arguments parent
    callees.block parent
  | .keyword .switch, _ => do
    let _ ← advance
    callees.arguments parent
    callees.switchBody parent
  | .keyword .for, _ => do
    let _ ← advance
    callees.forRest parent
  | .keyword .try, _ => do
    let _ ← advance
    callees.tryRest parent
  | .keyword .return, _ | .keyword .throw, _ | .keyword .break, _ | .keyword .continue, _
  | .keyword .assert, _ => do
    let _ ← advance
    callees.expression parent [.semicolon]
    let _ ← expect .statementEnd
  | .identifier _, .colon => do
    let _ ← advance
    let _ ← advance
    callees.statement parent
  | t, _ =>
    if t ∈ typeStarts then localType callees parent else localOrExpression callees parent

/-- Reads one statement. -/
def statement : Action whole Unit := do
  statementBy callees parent (← current) (← peek 1)

/-! ## What attempts come to -/

section

variable {s : State whole} {c : Cursor}

/-- A heading is read as the grammar reads modifiers and a type behind each other. -/
theorem heading_follows (hs : s.place = c) :
    s.Follows After.rest After.value (do
      let ⟨ms, c₁, h₁⟩ ← c.modifiers
      let ⟨type, c₂, h₂⟩ ← c₁.typeRef
      return (⟨(ms, type), c₂, h₂.trans_le h₁⟩ : After c (List Modifier × TypeRef))) heading := by
  refine (modifiers_follows hs []).bind fun r₁ s₁ hs₁ => ?_
  obtain ⟨ms, c₁, h₁⟩ := r₁
  refine (typeRef_follows hs₁).bind_after fun type c₂ h₂ s₂ hs₂ => ?_
  exact .done hs₂ rfl

/-- What follows an attempt sees its error as a value, in the state that the error was met in. -/
theorem attempt_bind {m : Action whole α} {β : Type} (g : Except SyntaxError α → Action whole β)
    {r : Except SyntaxError α} {s' : State whole} (h : m s = some (r, s')) :
    (attempt m >>= g) s = g r s' := by
  have hattempt : attempt m s = some (.ok r, s') := by rw [attempt, h]; rfl
  exact bind_of_ok hattempt g

/-- The two tokens that decide whether a heading declares are those at the place and behind it. -/
theorem State.namesVariable_iff {follow : List Token} (hs : s.place = c) :
    s.namesVariable follow ↔ ∃ name, c.current = .identifier name ∧ c.following ∈ follow := by
  rw [namesVariable, token_eq hs, peek_eq hs]
  split
  · next name hname => simp [hname]
  · next hne => simpa using fun name hname => absurd hname (hne name)

/-- An attempt at a heading reads it, with the name of a variable behind it, or nothing at all. -/
theorem declarationHead_cases (s : State whole) (follow : List Token) :
    (s.place.declarationHead? follow = none ∧ declarationHead follow s = some (.ok none, s)) ∨
    ∃ r p name, s.place.declarationHead? follow = some r ∧
      declarationHead follow s = some (.ok (some r.value), s.moved p) ∧
      (s.moved p).place = r.rest ∧ (s.moved p).lexeme.token = .identifier name ∧
      (s.moved p).peek 1 ∈ follow := by
  have hheading := heading_follows (s := s) rfl
  unfold Cursor.declarationHead?
  -- only what the heading comes to matters, not how it is read
  generalize (do
    let ⟨ms, c₁, h₁⟩ ← s.place.modifiers
    let ⟨type, c₂, h₂⟩ ← c₁.typeRef
    return (⟨(ms, type), c₂, h₂.trans_le h₁⟩ : After s.place (List Modifier × TypeRef))) = head
    at hheading ⊢
  rw [Follows] at hheading
  generalize hrun : heading s = run at hheading
  cases hheading with
  | fails e p => exact .inl ⟨rfl, attempt_bind _ hrun⟩
  | @ends r p place =>
    have hhead : declarationHead follow s =
        (if (s.moved p).namesVariable follow then return some r.value
          else do rewind s.position; return none : Action whole _) (s.moved p) :=
      attempt_bind _ hrun
    dsimp only
    by_cases hnames : (s.moved p).namesVariable follow
    · obtain ⟨name, hcurrent, hfollow⟩ := (namesVariable_iff place).mp hnames
      refine .inr ⟨r, p, name, ?_, ?_, place, (token_eq place).trans hcurrent, ?_⟩
      · simp only [hcurrent, List.contains_iff_mem.mpr hfollow, if_true]
      · rw [hhead, if_pos hnames]
        rfl
      · rwa [peek_eq place]
    · -- behind the heading stands no name that declares, so both sides give it up
      refine .inl ⟨?_, ?_⟩
      · split
        · next name hcurrent =>
          refine if_neg fun hfollow => hnames ?_
          exact (namesVariable_iff place).mpr ⟨name, hcurrent, List.contains_iff_mem.mp hfollow⟩
        · rfl
      · rw [hhead, if_neg hnames]
        rfl

/-- Looking at the state changes nothing. -/
theorem State.Follows.of_get {rest : ρ → Cursor} {value : ρ → α} {a : Except SyntaxError ρ}
    {g : State whole → Action whole α} (h : s.Follows rest value a (g s)) :
    s.Follows rest value a (get >>= g) :=
  h

/-- A refusal is the grammar's, and what is not refused is read again from the same place. -/
theorem primitiveStart_follows (s : State whole) :
    s.Follows (fun _ => s.place) id s.place.primitiveStart primitiveStart := by
  refine .of_current ?_
  rw [token_eq rfl, Cursor.primitiveStart]
  cases hcurrent : s.place.current with
  | identifier name =>
    dsimp only
    by_cases hprimitive : TypeRef.primitiveNames.contains name
    · rw [if_pos hprimitive, if_pos hprimitive]
      refine .of_get ((typeRef_follows rfl).bind_after fun _ c₁ h₁ s₁ hs₁ => .of_current ?_)
      rw [token_eq hs₁]
      dsimp only
      by_cases hdot : c₁.current = .dot
      · rw [if_pos hdot, if_pos hdot]
        exact .ends rfl
      · rw [if_neg hdot, if_neg hdot]
        exact (identifier_follows hs₁ _).bind_after fun _ c₂ h₂ s₂ hs₂ => .failed hs₂ _
    · rw [if_neg hprimitive, if_neg hprimitive]
      exact .done rfl rfl
  | _ => exact .done rfl rfl

theorem State.moved_eq_self {p : Fin whole.row.length} (h : (s.moved p).place = s.place) :
    s.moved p = s := by
  have hlength := (s.moved p).isAt_place.length_eq
  have hlength' := s.isAt_place.length_eq
  have hp : p = s.position := by
    rw [h] at hlength
    have hval : (s.moved p).position.val = s.position.val := by omega
    exact Fin.ext hval
  rw [hp]
  rfl

/-- A statement that is not refused is in the state that it was in, also if a type was read in front
of a dot. One that is refused is left where the grammar refuses it. -/
theorem primitiveStart_cases (s : State whole) :
    (s.place.primitiveStart = .ok () ∧ primitiveStart s = some (.ok (), s)) ∨
    ∃ e p, s.place.primitiveStart = .error e ∧ primitiveStart s = some (.error e, s.moved p) := by
  have hstart := primitiveStart_follows s
  rw [Follows] at hstart
  generalize s.place.primitiveStart = a at hstart
  generalize primitiveStart s = run at hstart
  cases hstart with
  | ends place => exact .inl ⟨rfl, by rw [moved_eq_self place, id]⟩
  | fails e p => exact .inr ⟨e, p, rfl, rfl⟩

/-- A local declaration is read behind its heading; anything else is refused, or it is passed from
the very state that the attempts began in. -/
theorem localOrExpression_cases (s : State whole) :
    (∃ r p, s.place.declarationHead? declaratorFollow = some r ∧ (s.moved p).place = r.rest ∧
      localOrExpression callees parent s =
        localDeclaration callees parent r.value.1 r.value.2 (s.moved p)) ∨
    (∃ e p, s.place.declarationHead? declaratorFollow = none ∧
      s.place.primitiveStart = .error e ∧
      localOrExpression callees parent s = some (.error e, s.moved p)) ∨
    (s.place.declarationHead? declaratorFollow = none ∧ s.place.primitiveStart = .ok () ∧
      localOrExpression callees parent s = expressionStatement callees parent s) := by
  rcases declarationHead_cases s declaratorFollow with ⟨hnone, hrun⟩ | ⟨r, p, _, hsome, hrun, hp, -⟩
  · have hlocal : localOrExpression callees parent s =
        (do primitiveStart; expressionStatement callees parent : Action whole Unit) s :=
      bind_of_ok hrun _
    rcases primitiveStart_cases s with ⟨hstart, hrun'⟩ | ⟨e, p, hstart, hrun'⟩
    · exact .inr (.inr ⟨hnone, hstart, hlocal.trans (bind_of_ok hrun' _)⟩)
    · exact .inr (.inl ⟨e, p, hnone, hstart, hlocal.trans (bind_of_error hrun' _)⟩)
  · exact .inl ⟨r, p, hsome, hp, bind_of_ok hrun _⟩

/-- Whether a type starts is judged from the same two tokens. -/
theorem State.startsType_eq (hs : s.place = c) : s.startsType = c.startsType := by
  rw [State.startsType, token_eq hs, peek_eq hs]
  rfl

/-- A local type is declared behind its modifiers; what is none is read from the very state that
its modifiers were read in. -/
theorem localType_cases (s : State whole) :
    (∃ e p, s.place.modifiers = .error e ∧
      localType callees parent s = some (.error e, s.moved p)) ∨
    (∃ r p, s.place.modifiers = .ok r ∧ (s.moved p).place = r.rest ∧ r.rest.startsType ∧
      localType callees parent s = callees.typeDeclaration parent r.value (s.moved p)) ∨
    (∃ r p, s.place.modifiers = .ok r ∧ modifiers [] s = some (.ok r.value, s.moved p) ∧
      r.rest.startsType = false ∧
      localType callees parent s = localOrExpression callees parent s) := by
  have hmodifiers := modifiers_follows (s := s) rfl []
  rw [Follows] at hmodifiers
  -- the modifiers decide between the three ways
  generalize s.place.modifiers = a at hmodifiers ⊢
  generalize hrun : modifiers [] s = run at hmodifiers
  cases hmodifiers with
  | fails e p => exact .inl ⟨e, p, rfl, bind_of_error hrun _⟩
  | @ends r p place =>
    have hlocal : localType callees parent s =
        (if (s.moved p).startsType then callees.typeDeclaration parent r.value
          else do rewind s.position; localOrExpression callees parent : Action whole Unit)
          (s.moved p) := bind_of_ok hrun _
    rw [startsType_eq place] at hlocal
    cases hstarts : r.rest.startsType with
    | true =>
      rw [if_pos hstarts] at hlocal
      exact .inr (.inl ⟨r, p, rfl, place, hstarts, hlocal⟩)
    | false =>
      rw [if_neg (by simp [hstarts])] at hlocal
      exact .inr (.inr ⟨r, p, rfl, rfl, hstarts, hlocal⟩)

/-! ## Statements by their forms -/

/-- Takes a step of a statement. -/
def takeStep : StatementStep → Action whole Unit
  | .skip => do
    let _ ← advance
  | .mark m => do
    let _ ← expect m
  | .otherwise => do
    if (← current) = .keyword .else then
      let _ ← advance
      callees.statement parent
  | .arguments => callees.arguments parent
  | .statement => callees.statement parent
  | .block => callees.block parent
  | .switchBody => callees.switchBody parent
  | .forRest => callees.forRest parent
  | .tryRest => callees.tryRest parent
  | .expression => callees.expression parent [.semicolon]

/-- Takes one step behind the other. -/
def takeSteps : List StatementStep → Action whole Unit
  | [] => return ()
  | step :: steps => do
    takeStep callees parent step
    takeSteps steps

/-- Reads a statement of a form. -/
def statementOf : StatementForm → Action whole Unit
  | .block => callees.block parent
  | .row steps => do
    let _ ← advance
    takeSteps callees parent steps
  | .localClass => localType callees parent
  | .localOrExpression => localOrExpression callees parent

/-- Whatever may begin a local type is first tried as one. -/
theorem statementForm_of_typeStarts {first second : Token} (h : first ∈ typeStarts) :
    statementForm first second = .localClass := by
  simp only [typeStarts, List.mem_cons, List.not_mem_nil, or_false] at h
  rcases h with rfl | rfl | rfl | rfl | rfl | rfl | rfl | rfl
  all_goals rfl

/-- What begins with two tokens is read by the form that they tell. -/
theorem statementBy_eq (first second : Token) :
    statementBy callees parent first second =
      statementOf callees parent (statementForm first second) := by
  unfold statementBy
  split
  case h_16 hlock hlabel =>
    split
    · next htype => rw [statementForm_of_typeStarts htype, statementOf]
    · next htype =>
      -- the other forms have been told apart before
      unfold statementForm
      split
      all_goals
        first
        | rfl
        | exact absurd (by decide) htype
        | exact (hlock rfl rfl).elim
        | exact (hlabel _ rfl rfl).elim
        | exact absurd rfl (by assumption)
  all_goals
    simp only [statementForm, statementOf, takeSteps, takeStep, bind_pure_unit, bind_assoc,
      pure_bind]

/-- A statement is read by the form that its first two tokens tell. -/
theorem statement_eq_statementOf (s : State whole) : statement callees parent s =
    statementOf callees parent (statementForm s.lexeme.token (s.peek 1)) s := by
  rw [← statementBy_eq]
  rfl

/-- So in front of such a token it is read as a local type, or put back. -/
theorem statement_of_typeStarts (h : s.lexeme.token ∈ typeStarts) :
    statement callees parent s = localType callees parent s := by
  rw [statement_eq_statementOf, statementForm_of_typeStarts h, statementOf]

end

/-! ## Statements with the readers of the grammar -/

namespace State

/-- Below a node the tree has these outlines more than before, and the errors are those of
before. -/
structure Hung (s start : State whole) (parent : Nat) (os : List Outline) : Prop where
  tree_eq : s.tree = start.tree.graftAll parent os
  errors_eq : s.errors = start.errors

/-- What a run comes to if it hangs below a node what a reader of the grammar gives: it ends at the
same place, or with the same error. -/
inductive GraftOutcome (start : State whole) (parent : Nat) (rest : ρ → Cursor)
    (outlines : ρ → List Outline) :
    Except SyntaxError ρ → Option (Except SyntaxError Unit × State whole) → Prop
  | ends {r : ρ} {s : State whole} (place : s.place = rest r)
      (hung : s.Hung start parent (outlines r)) :
      GraftOutcome start parent rest outlines (.ok r) (some (.ok (), s))
  | fails {s : State whole} (e : SyntaxError) (errors_eq : s.errors = start.errors) :
      GraftOutcome start parent rest outlines (.error e) (some (.error e, s))

/-- An action hangs below a node what a reader of the grammar gives. What is hung there is counted
from a state at or before the one in which the action begins. -/
def Grafts (s start : State whole) (parent : Nat) (rest : ρ → Cursor)
    (outlines : ρ → List Outline) (a : Except SyntaxError ρ) (m : Action whole Unit) : Prop :=
  start.GraftOutcome parent rest outlines a (m s)

variable {s start : State whole} {parent : Nat} {os : List Outline}

theorem Hung.refl (s : State whole) (parent : Nat) : s.Hung s parent [] :=
  ⟨(SyntaxTree.graftAll.eq_1 _ _).symm, rfl⟩

/-- Moving the index hangs nothing. -/
theorem Hung.moved (h : s.Hung start parent os) (p : Fin whole.row.length) :
    (s.moved p).Hung start parent os :=
  ⟨h.tree_eq, h.errors_eq⟩

theorem Hung.next (h : s.Hung start parent os) : s.next.Hung start parent os := by
  obtain ⟨p, hp⟩ := s.exists_next_eq
  rw [hp]
  exact h.moved p

/-- What is hung behind each other stands below the node in this order. -/
theorem Hung.append {s' : State whole} {os' : List Outline} (h : s.Hung start parent os)
    (h' : s'.Hung s parent os') : s'.Hung start parent (os ++ os') :=
  ⟨by rw [h'.tree_eq, h.tree_eq, SyntaxTree.graftAll_append], h'.errors_eq.trans h.errors_eq⟩

end State

namespace State.Grafts

variable {s start : State whole} {c : Cursor} {parent : Nat} {os : List Outline}
  {rest : ρ → Cursor} {outlines : ρ → List Outline} {rest' : σ → Cursor}
  {outlines' : σ → List Outline} {a : Except SyntaxError ρ}

/-- Looking at the current token changes nothing. -/
theorem of_current {g : Token → Action whole Unit}
    (h : s.Grafts start parent rest outlines a (g s.lexeme.token)) :
    s.Grafts start parent rest outlines a (current >>= g) :=
  h

/-- The steps after a step that only moves the index. -/
theorem bind_follows {value : ρ → α} {f : ρ → Except SyntaxError σ} {m : Action whole α}
    {g : α → Action whole Unit} (h : s.Follows rest value a m) (hs : s.Hung start parent os)
    (hok : ∀ (r : ρ) (s' : State whole), s'.place = rest r → s'.Hung start parent os →
      s'.Grafts start parent rest' outlines' (f r) (g (value r))) :
    s.Grafts start parent rest' outlines' (a >>= f) (m >>= g) := by
  rw [Follows] at h
  rw [Grafts]
  generalize hrun : m s = run at h
  cases h with
  | @ends r p place =>
    rw [bind_of_ok hrun]
    exact hok r _ place (hs.moved p)
  | fails e p =>
    rw [bind_of_error hrun]
    exact .fails e hs.errors_eq

/-- The steps after a step that hangs something below the node. -/
theorem bind {f : ρ → Except SyntaxError σ} {m : Action whole Unit} {g : Unit → Action whole Unit}
    (h : s.Grafts s parent rest outlines a m) (hs : s.Hung start parent os)
    (hok : ∀ (r : ρ) (s' : State whole), s'.place = rest r →
      s'.Hung start parent (os ++ outlines r) →
      s'.Grafts start parent rest' outlines' (f r) (g ())) :
    s.Grafts start parent rest' outlines' (a >>= f) (m >>= g) := by
  rw [Grafts] at h ⊢
  generalize hrun : m s = run at h
  cases h with
  | ends place hung =>
    rw [bind_of_ok hrun]
    exact hok _ _ place (hs.append hung)
  | fails e herrors =>
    rw [bind_of_error hrun]
    exact .fails e (herrors.trans hs.errors_eq)

/-- A last step hangs something below the node. -/
theorem carried {f : ρ → Except SyntaxError σ} {m : Action whole Unit}
    (h : s.Grafts s parent rest outlines a m) (hs : s.Hung start parent os)
    (hok : ∀ r, ∃ r', f r = .ok r' ∧ rest' r' = rest r ∧ outlines' r' = os ++ outlines r) :
    s.Grafts start parent rest' outlines' (a >>= f) m := by
  rw [Grafts] at h ⊢
  generalize m s = run at h
  cases h with
  | @ends r s' place hung =>
    obtain ⟨r', hr', hrest, houtlines⟩ := hok r
    change start.GraftOutcome parent rest' outlines' (f r) _
    rw [hr']
    exact .ends (place.trans hrest.symm) (houtlines ▸ hs.append hung)
  | fails e herrors => exact .fails e (herrors.trans hs.errors_eq)

/-- An action that ends at once has hung what was hung before it. -/
theorem done {r : ρ} (place : s.place = rest r) (hs : s.Hung start parent (outlines r)) :
    s.Grafts start parent rest outlines (.ok r) (pure ()) :=
  .ends place hs

end State.Grafts

/-- The same state but for the index, which is that of a place of the row. -/
def State.seek (s : State whole) (c : Cursor) : State whole :=
  s.moved ⟨whole.remaining - c.remaining, by rw [Cursor.length_row]; omega⟩

/-- A state that is moved to a place of its row stands there. -/
theorem State.place_seek {s : State whole} {c : Cursor} (hc : c.PlaceIn whole) :
    (s.seek c).place = c := by
  obtain ⟨pending, stop⟩ := c
  have hdrop : pending = whole.pending.drop (whole.pending.length - pending.length) :=
    List.suffix_iff_eq_drop.mp hc.suffix
  have hstop : stop = whole.stop := hc.stop_eq
  rw [hstop]
  exact congrArg (Cursor.mk · whole.stop) hdrop.symm

/-- Reads what a reader of the grammar reads, and hangs it below a node. -/
def grafting {ρ : Cursor → Type} (rest : ∀ c, ρ c → Cursor) (outlines : ∀ c, ρ c → List Outline)
    (read : ∀ c, Except SyntaxError (ρ c)) (parent : Nat) : Action whole Unit :=
  fun s =>
    match read s.place with
    | .ok r =>
      some (.ok (), { s.seek (rest _ r) with tree := s.tree.graftAll parent (outlines _ r) })
    | .error e => some (.error e, s)

/-- Hanging the outlines that a reader gives is what the reader gives, provided that it stays in the
row. -/
theorem grafts_grafting {ρ : Cursor → Type} (rest : ∀ c, ρ c → Cursor)
    (outlines : ∀ c, ρ c → List Outline) (read : ∀ c, Except SyntaxError (ρ c)) {s : State whole}
    {c : Cursor} (hs : s.place = c) (h : StaysIn whole (rest c) (read c)) (parent : Nat) :
    s.Grafts s parent (rest c) (outlines c) (read c) (grafting rest outlines read parent) := by
  obtain rfl := hs
  rw [Grafts, grafting]
  generalize read s.place = a at h
  cases h with
  | ends hplace =>
    have hseek : (s.seek _).place = _ := place_seek hplace
    exact .ends hseek ⟨rfl, rfl⟩
  | fails hplace demand => exact .fails _ rfl

/-- The readers of the grammar. -/
def Callees.ofGrammar (whole : Cursor) : Callees whole where
  block := grafting (fun _ => After.rest) (fun _ r => [r.value]) Cursor.block
  statement := grafting (fun _ => After.rest) (fun _ => After.value) Cursor.statement
  arguments := grafting (fun _ => After.rest) (fun _ => After.value) Cursor.arguments
  switchBody := grafting (fun _ => After.rest) (fun _ r => [r.value]) Cursor.switchBody
  forRest := grafting (fun _ => After.rest) (fun _ => After.value) Cursor.forRest
  tryRest := grafting (fun _ => After.rest) (fun _ => After.value) Cursor.tryRest
  expression parent terminators :=
    grafting (fun _ => From.rest) (fun _ => From.value) (Cursor.expression · terminators 0) parent
  declarators parent ms type name span :=
    grafting (fun _ => From.rest) (fun _ => From.value) (Cursor.declarators · ms type name span)
      parent
  typeDeclaration parent ms :=
    grafting (fun _ => After.rest) (fun _ r => [r.value]) (Cursor.typeDeclaration · ms) parent

/-- The place of a state is in its row. -/
theorem State.placeIn {s : State whole} {c : Cursor} (hs : s.place = c) : c.PlaceIn whole := by
  obtain rfl := hs
  exact ⟨rfl, List.drop_suffix _ _⟩

/-- The readers that a statement at a cursor hands over to hang below a node what the readers of the
grammar give. Blocks, expressions and local types may begin where the statement does; all other
readers are called behind its first token. -/
structure Callees.HangFrom (callees : Callees whole) (c : Cursor) : Prop where
  block : ∀ {s : State whole} {d : Cursor}, s.place = d → d.NotBefore c → ∀ parent,
    s.Grafts s parent After.rest (fun r => [r.value]) d.block (callees.block parent)
  statement : ∀ {s : State whole} {d : Cursor}, s.place = d → d.Behind c → ∀ parent,
    s.Grafts s parent After.rest After.value d.statement (callees.statement parent)
  arguments : ∀ {s : State whole} {d : Cursor}, s.place = d → d.Behind c → ∀ parent,
    s.Grafts s parent After.rest After.value d.arguments (callees.arguments parent)
  switchBody : ∀ {s : State whole} {d : Cursor}, s.place = d → d.Behind c → ∀ parent,
    s.Grafts s parent After.rest (fun r => [r.value]) d.switchBody (callees.switchBody parent)
  forRest : ∀ {s : State whole} {d : Cursor}, s.place = d → d.Behind c → ∀ parent,
    s.Grafts s parent After.rest After.value d.forRest (callees.forRest parent)
  tryRest : ∀ {s : State whole} {d : Cursor}, s.place = d → d.Behind c → ∀ parent,
    s.Grafts s parent After.rest After.value d.tryRest (callees.tryRest parent)
  expression : ∀ {s : State whole} {d : Cursor}, s.place = d → d.NotBefore c → ∀ parent,
    s.Grafts s parent From.rest From.value (d.expression [.semicolon] 0)
      (callees.expression parent [.semicolon])
  declarators : ∀ {s : State whole} {d : Cursor}, s.place = d → d.Behind c →
    ∀ parent ms type name span, s.Grafts s parent From.rest From.value
      (d.declarators ms type name span) (callees.declarators parent ms type name span)
  typeDeclaration : ∀ {s : State whole} {d : Cursor}, s.place = d → d.NotBefore c →
    ∀ parent ms, s.Grafts s parent After.rest (fun r => [r.value]) (d.typeDeclaration ms)
      (callees.typeDeclaration parent ms)

/-- The readers of the grammar do, wherever they are called. -/
theorem Callees.ofGrammar_hangFrom (c : Cursor) : (ofGrammar whole).HangFrom c := by
  -- there is an index behind each reading because no reader leaves the row of tokens
  have hstays (n : Nat) := Cursor.staysBelow whole n
  exact
    { block := fun hs _ => grafts_grafting (fun _ => After.rest) (fun _ r => [r.value]) Cursor.block
        hs (Cursor.staysIn_block (hstays _) (Nat.le_refl _) (placeIn hs))
      statement := fun hs _ => grafts_grafting (fun _ => After.rest) (fun _ => After.value)
        Cursor.statement hs (Cursor.staysIn_statement (hstays _) (Nat.le_refl _) (placeIn hs))
      arguments := fun hs _ => grafts_grafting (fun _ => After.rest) (fun _ => After.value)
        Cursor.arguments hs (Cursor.staysIn_arguments (hstays _) (Nat.le_refl _) (placeIn hs))
      switchBody := fun hs _ => grafts_grafting (fun _ => After.rest) (fun _ r => [r.value])
        Cursor.switchBody hs (Cursor.staysIn_switchBody (hstays _) (Nat.le_refl _) (placeIn hs))
      forRest := fun hs _ => grafts_grafting (fun _ => After.rest) (fun _ => After.value)
        Cursor.forRest hs (Cursor.staysIn_forRest (hstays _) (Nat.le_refl _) (placeIn hs))
      tryRest := fun hs _ => grafts_grafting (fun _ => After.rest) (fun _ => After.value)
        Cursor.tryRest hs (Cursor.staysIn_tryRest (hstays _) (Nat.le_refl _) (placeIn hs))
      expression := fun hs _ => grafts_grafting (fun _ => From.rest) (fun _ => From.value)
        (Cursor.expression · [.semicolon] 0) hs
        (Cursor.staysIn_expression (hstays _) (Nat.le_refl _) (placeIn hs) _ _)
      declarators := fun hs _ parent ms type name span =>
        grafts_grafting (fun _ => From.rest) (fun _ => From.value)
          (Cursor.declarators · ms type name span) hs
          (Cursor.staysIn_declarators (hstays _) (Nat.le_refl _) (placeIn hs) _ _ _ _) parent
      typeDeclaration := fun hs _ parent ms =>
        grafts_grafting (fun _ => After.rest) (fun _ r => [r.value])
          (Cursor.typeDeclaration · ms) hs
          (Cursor.staysIn_typeDeclaration (hstays _) (Nat.le_refl _) (placeIn hs) _) parent }

/-- A token other than the end is accepted at the place exactly if it stands at the index; then both
go past it with the same stretch. -/
theorem State.accept?_cases {s : State whole} {c : Cursor} (hs : s.place = c) {t : Token}
    (ht : t ≠ .eof) :
    (s.lexeme.token = t ∧ ∃ r, c.accept? t = some r ∧ s.next.place = r.rest ∧
      s.lexeme.span = r.value) ∨
    (s.lexeme.token ≠ t ∧ c.accept? t = none) := by
  by_cases htoken : s.lexeme.token = t
  · obtain ⟨span, d, hd, hview, hs'⟩ := exists_view hs htoken ht
    refine .inl ⟨htoken, ⟨span, d, hd⟩, ?_, hs', span_of_view hs hview⟩
    simp only [Cursor.accept?, hview, if_true]
  · refine .inr ⟨htoken, Cursor.accept?_eq_none ?_⟩
    rwa [← token_eq hs]

section

open Grafts

variable {callees : Callees whole} {s : State whole} {c : Cursor} (h : callees.HangFrom c)
include h

/-- A declaration of locals hangs its variables; an expression is read from the state that the
attempts began in, so nothing of them is hung. -/
theorem localOrExpression_grafts (hs : s.place = c) (parent : Nat) :
    s.Grafts s parent After.rest After.value c.localOrExpression
      (localOrExpression callees parent) := by
  obtain rfl := hs
  rw [Cursor.localOrExpression]
  rcases localOrExpression_cases callees parent s with
    ⟨⟨⟨ms, type⟩, c₁, h₁⟩, p, hhead, hp, hrun⟩ | ⟨e, p, hhead, hstart, hrun⟩ | ⟨hhead, hstart, hrun⟩
  · -- a declaration: the heading has moved the index and hung nothing
    rw [hhead, Grafts, hrun]
    refine bind_follows (identifier_follows hp _) ((Hung.refl s parent).moved p)
      fun r₂ s₂ hs₂ hg₂ => ?_
    obtain ⟨⟨name, span⟩, c₂, h₂⟩ := r₂
    refine (h.declarators hs₂ (h₂.trans h₁) parent ms type name span).bind hg₂
      fun r₃ s₃ hs₃ hg₃ => ?_
    obtain ⟨declared, c₃, h₃⟩ := r₃
    exact bind_follows (expect_follows hs₃ _) hg₃ fun _ s₄ hs₄ hg₄ => .done hs₄ hg₄
  · rw [hhead, Grafts, hrun]
    dsimp only
    rw [hstart]
    exact .fails e rfl
  · -- an expression, from the state that the attempts began in
    rw [hhead, Grafts, hrun]
    dsimp only
    rw [hstart]
    refine (h.expression rfl (Nat.le_refl _) parent).bind (.refl s parent)
      fun r₁ s₁ hs₁ hg₁ => ?_
    obtain ⟨classes, c₁, h₁⟩ := r₁
    exact bind_follows (expect_follows hs₁ _) hg₁ fun _ s₂ hs₂ hg₂ => .done hs₂ hg₂

/-- A local type is hung once. What was tried as one and is none has moved the index and nothing
else, and is put back. -/
theorem localType_grafts (hs : s.place = c) (parent : Nat) :
    s.Grafts s parent After.rest After.value c.localClass (localType callees parent) := by
  obtain rfl := hs
  rw [Cursor.localClass]
  rcases localType_cases callees parent s with
    ⟨e, p, hmodifiers, hrun⟩ | ⟨⟨ms, c₁, h₁⟩, p, hmodifiers, hp, hstarts, hrun⟩ |
    ⟨⟨ms, c₁, h₁⟩, p, hmodifiers, -, hstarts, hrun⟩
  · rw [hmodifiers, Grafts, hrun]
    exact .fails e rfl
  · rw [hmodifiers, Grafts, hrun]
    change s.GraftOutcome parent After.rest After.value (if c₁.startsType then _ else _) _
    rw [if_pos hstarts]
    exact (h.typeDeclaration hp h₁ parent ms).carried ((Hung.refl s parent).moved p)
      fun r => ⟨_, rfl, rfl, rfl⟩
  · rw [hmodifiers, Grafts, hrun]
    change s.GraftOutcome parent After.rest After.value (if c₁.startsType then _ else _) _
    rw [if_neg (by simpa using hstarts)]
    exact localOrExpression_grafts h rfl parent

/-- Each step of a statement hangs what the grammar reads in it. -/
theorem takeStep_grafts {d : Cursor} (hs : s.place = d) (hd : d.Behind c) (parent : Nat)
    (step : StatementStep) :
    s.Grafts s parent From.rest From.value (step.read d) (takeStep callees parent step) := by
  have hg := Hung.refl s parent
  cases step with
  | skip =>
    have hnext : s.next.place = d.skip := by rw [place_next, hs]
    exact .done hnext hg.next
  | mark m => exact bind_follows (expect_follows hs m) hg fun _ s₁ hs₁ hg₁ => .done hs₁ hg₁
  | otherwise =>
    refine of_current ?_
    rw [StatementStep.read]
    rcases accept?_cases hs (t := .keyword .else) (by simp) with
      ⟨helse, r₁, haccept, hs₁, -⟩ | ⟨helse, haccept⟩
    · rw [haccept, if_pos helse]
      exact (h.statement hs₁ (r₁.behind.trans hd) parent).carried hg.next
        fun r => ⟨_, rfl, rfl, rfl⟩
    · -- without an `else` the step hangs nothing and stays
      rw [haccept, if_neg helse]
      exact .done hs hg
  | arguments => exact (h.arguments hs hd parent).carried hg fun r => ⟨_, rfl, rfl, rfl⟩
  | statement => exact (h.statement hs hd parent).carried hg fun r => ⟨_, rfl, rfl, rfl⟩
  | block => exact (h.block hs hd.le parent).carried hg fun r => ⟨_, rfl, rfl, rfl⟩
  | switchBody => exact (h.switchBody hs hd parent).carried hg fun r => ⟨_, rfl, rfl, rfl⟩
  | forRest => exact (h.forRest hs hd parent).carried hg fun r => ⟨_, rfl, rfl, rfl⟩
  | tryRest => exact (h.tryRest hs hd parent).carried hg fun r => ⟨_, rfl, rfl, rfl⟩
  | expression => exact h.expression hs hd.le parent

/-- The steps of a statement hang one behind the other, by induction on the steps. -/
theorem takeSteps_grafts {d : Cursor} (hs : s.place = d) (hd : d.Behind c) (parent : Nat)
    (steps : List StatementStep) :
    s.Grafts s parent From.rest From.value (StatementStep.readAll d steps)
      (takeSteps callees parent steps) := by
  induction steps generalizing s d with
  | nil => exact .done hs (.refl s parent)
  | cons step steps ih =>
    refine (takeStep_grafts h hs hd parent step).bind (.refl s parent) fun r₁ s₁ hs₁ hg₁ => ?_
    exact (ih hs₁ (r₁.notBefore.trans_lt hd)).carried hg₁ fun r₂ => ⟨_, rfl, rfl, rfl⟩

/-- A statement is the grammar's if the readers are that it hands over to: whatever was tried, its
nodes are hung below the node once, in their order. -/
theorem statement_grafts (hs : s.place = c) (parent : Nat) :
    s.Grafts s parent After.rest After.value c.statement (statement callees parent) := by
  have hg := Hung.refl s parent
  rw [Grafts, statement_eq_statementOf, token_eq hs, peek_eq hs, Cursor.statement_eq]
  cases hform : statementForm c.current c.following with
  | block => exact (h.block hs (Nat.le_refl _) parent).carried hg fun r => ⟨_, rfl, rfl, rfl⟩
  | row steps =>
    rw [StatementForm.read]
    cases hview : c.view with
    | stop =>
      rw [Cursor.current_of_view_stop hview] at hform
      cases hform
    | token t span c₁ h₁ =>
      exact (takeSteps_grafts h (next_of_view hs hview) h₁ parent steps).carried hg.next
        fun r => ⟨_, rfl, rfl, rfl⟩
  | localClass => exact localType_grafts h hs parent
  | localOrExpression => exact localOrExpression_grafts h hs parent

end

/-! ## No trace -/

/-- The action comes to an end from every state, with a value or an error, and moves nothing but the
index. -/
def OnlyMoves (m : Action whole α) : Prop :=
  ∀ s : State whole, ∃ result p, m s = some (result, s.moved p)

/-- What only follows a reader has a result and moves only the index. -/
theorem State.Follows.exists_moved {s : State whole} {rest : ρ → Cursor} {value : ρ → α}
    {a : Except SyntaxError ρ} {m : Action whole α} (h : s.Follows rest value a m) :
    ∃ result p, m s = some (result, s.moved p) := by
  rw [Follows] at h
  generalize m s = run at h ⊢
  cases h with
  | ends place => exact ⟨_, _, rfl⟩
  | fails e p => exact ⟨_, p, rfl⟩

/-- What is tried leaves no trace. Between keeping the index and putting it back only modifiers
and a type are read, and they move nothing but the index, whatever they come to. So a heading that
is not there leaves the whole state as it was; one that is there moves the index on, to a name
with one of the asked tokens behind it. A statement that may begin a local type, and one that may
begin a local declaration, hand over from a state in which only the index was moved, or start
again from the very state they began in, whatever the readers do that they hand over to. If these
are the grammar's, the statement is the grammar's. -/
theorem leaves_no_trace (s : State whole) :
    (OnlyMoves (modifiers [] : Action whole _) ∧ OnlyMoves (typeRef : Action whole _)) ∧
    (∀ follow,
      (s.place.declarationHead? follow = none ∧ declarationHead follow s = some (.ok none, s)) ∨
      ∃ r p name, s.place.declarationHead? follow = some r ∧
        declarationHead follow s = some (.ok (some r.value), s.moved p) ∧ s.position < p ∧
        (s.moved p).lexeme.token = .identifier name ∧ (s.moved p).peek 1 ∈ follow) ∧
    (∀ callees parent, s.lexeme.token ∈ typeStarts →
      (∃ e p, s.place.modifiers = .error e ∧
        statement callees parent s = some (.error e, s.moved p)) ∨
      (∃ r p, s.place.modifiers = .ok r ∧ (s.moved p).place = r.rest ∧ r.rest.startsType ∧
        statement callees parent s = callees.typeDeclaration parent r.value (s.moved p)) ∨
      (∃ r p, s.place.modifiers = .ok r ∧ modifiers [] s = some (.ok r.value, s.moved p) ∧
        r.rest.startsType = false ∧
        statement callees parent s = localOrExpression callees parent s)) ∧
    (∀ callees parent,
      (∃ r p, s.place.declarationHead? declaratorFollow = some r ∧ (s.moved p).place = r.rest ∧
        localOrExpression callees parent s =
          localDeclaration callees parent r.value.1 r.value.2 (s.moved p)) ∨
      (∃ e p, s.place.declarationHead? declaratorFollow = none ∧
        s.place.primitiveStart = .error e ∧
        localOrExpression callees parent s = some (.error e, s.moved p)) ∨
      (s.place.declarationHead? declaratorFollow = none ∧ s.place.primitiveStart = .ok () ∧
        localOrExpression callees parent s = expressionStatement callees parent s)) ∧
    ∀ parent, s.Grafts s parent After.rest After.value s.place.statement
      (statement (.ofGrammar whole) parent) := by
  refine ⟨⟨fun s => ?_, fun s => ?_⟩, fun follow => ?_, fun callees parent htype => ?_,
    fun callees parent => ?_,
    fun parent => statement_grafts (Callees.ofGrammar_hangFrom _) rfl parent⟩
  · -- what is read between keeping the index and putting it back only moves it
    exact (modifiers_follows (s := s) rfl []).exists_moved
  · exact (typeRef_follows (s := s) rfl).exists_moved
  · rcases declarationHead_cases s follow with hnone | ⟨r, p, name, hsome, hrun, hp, hname, hfollow⟩
    · exact .inl hnone
    · have hbehind : (s.moved p).place.Behind s.place := hp ▸ r.behind
      exact .inr ⟨r, p, name, hsome, hrun, position_lt hbehind, hname, hfollow⟩
  · rw [statement_of_typeStarts callees parent htype]
    exact localType_cases callees parent s
  · exact localOrExpression_cases callees parent s

/-- A block with a call in it that begins like a declaration. -/
def lookalike : Cursor where
  pending :=
    [.leftBrace, .modifier .final, .identifier "Map", .less, .identifier "K", .comma,
      .identifier "int", .leftBracket, .rightBracket, .greater, .identifier "f", .leftParen,
      .rightParen, .semicolon, .rightBrace].map (⟨·, .at ⟨1, 1⟩⟩)
  stop := .at ⟨1, 1⟩

/-- Modifiers, a type and a name are read here and put back. -/
theorem leaves_no_trace_lookalike :
    let s : State lookalike := ⟨⟨1, by decide⟩, .empty, []⟩
    s.lexeme.token ∈ typeStarts ∧
      declarationHead declaratorFollow s = some (.ok none, s) ∧
      ∀ callees parent, statement callees parent s = expressionStatement callees parent s := by
  intro s
  have htype : s.lexeme.token ∈ typeStarts := by decide
  have hhead : s.place.declarationHead? declaratorFollow = none :=
    Option.isNone_iff_eq_none.mp (by decide +kernel)
  obtain ⟨-, hheading, hstatement, hlocal, -⟩ := leaves_no_trace s
  refine ⟨htype, ?_, fun callees parent => ?_⟩
  · rcases hheading declaratorFollow with ⟨-, hrun⟩ | ⟨r, p, name, hsome, -⟩
    · exact hrun
    · exact nomatch hhead.symm.trans hsome
  · -- the modifier in front is no local type, so it is put back before anything is tried
    have hmodifiers : s.place.modifiers.toOption.any (fun r => !r.rest.startsType) := by
      decide +kernel
    obtain ⟨r, hr, hstarts⟩ := exists_ok_of_any hmodifiers
    have hstart : s.place.primitiveStart = .ok () := eq_ok_of_toOption (by decide +kernel)
    have hrun : statement callees parent s = localOrExpression callees parent s := by
      rcases hstatement callees parent htype with
        ⟨e, p, he, -⟩ | ⟨r', p, hr', -, hstarts', -⟩ | ⟨r', p, hr', -, -, hrun⟩
      · exact nomatch hr.symm.trans he
      · obtain rfl := Except.ok.inj (hr.symm.trans hr')
        simp [hstarts'] at hstarts
      · exact hrun
    rcases hlocal callees parent with ⟨r', p, hsome, -⟩ | ⟨e, p, -, he, -⟩ | ⟨-, -, hrun'⟩
    · exact nomatch hhead.symm.trans hsome
    · exact nomatch hstart.symm.trans he
    · exact hrun.trans hrun'

end Stateful

end FieldShadow
