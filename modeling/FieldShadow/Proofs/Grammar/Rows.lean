import FieldShadow.Grammar.Parser
import FieldShadow.Proofs.Grammar.View

/-!
# Rows of members, statements and declarations

Members of a type, statements of a block and groups of a `switch` are read in the same way, one
thing after the other up to a closing brace (`ReadsRow`). They differ only in the reader of one
thing, and the nodes around them only in their braces and their kind (`braces`). The declarations of
a unit are such a row too, but one that ends with the tokens.

What is to be known of a row is shown for one thing, and for the whole row by induction on how it
was read (`ReadsRow.induction`, `declarations_induction`).
-/

namespace FieldShadow.Cursor

/-- What is read, and what is read behind it, as one row. -/
def After.append {c : Cursor} (r : After c (List Outline)) (r' : From r.rest (List Outline)) :
    From c (List Outline) :=
  ⟨r.value ++ r'.value, r'.rest, r'.notBefore.of_behind r.behind⟩

/-- Behind an inner reader that may stand still, what follows is still strictly behind the start. -/
theorem Behind.trans_from {c c₁ c₂ c₃ : Cursor} (h₃ : c₃.Behind c₂) (h₂ : c₂.NotBefore c₁)
    (h₁ : c₁.Behind c) : c₃.Behind c :=
  (h₃.trans_le h₂).trans h₁

/-! ## Rows up to a brace -/

/-- A reader reads one after the other up to a closing brace. -/
structure ReadsRow (enclosure : Enclosure)
    (one : (c : Cursor) → Except SyntaxError (After c (List Outline)))
    (row : (c : Cursor) → Except SyntaxError (From c (List Outline))) : Prop where
  eof : ∀ c, c.current = .eof → row c = .error (c.fault (.more enclosure))
  brace : ∀ c, c.current = .rightBrace → row c = .ok (c.stay [])
  more : ∀ c, c.current ≠ .eof → c.current ≠ .rightBrace →
    row c = one c >>= fun r => row r.rest >>= fun r' => .ok (r.append r')

/-- What holds of nothing in front of a brace, and of one more thing if it holds of the row behind
it, holds of every row that is read. -/
theorem ReadsRow.induction {enclosure : Enclosure}
    {one : (c : Cursor) → Except SyntaxError (After c (List Outline))}
    {row : (c : Cursor) → Except SyntaxError (From c (List Outline))}
    (hrow : ReadsRow enclosure one row) {motive : (c : Cursor) → From c (List Outline) → Prop}
    (brace : ∀ c, c.current = .rightBrace → motive c (c.stay []))
    (more : ∀ c (r : After c (List Outline)) (r' : From r.rest (List Outline)),
      c.current ≠ .eof → c.current ≠ .rightBrace → one c = .ok r → motive r.rest r' →
      motive c (r.append r'))
    {c : Cursor} {r : From c (List Outline)} (h : row c = .ok r) : motive c r := by
  by_cases heof : c.current = .eof
  · rw [hrow.eof c heof] at h
    cases h
  · by_cases hbrace : c.current = .rightBrace
    · rw [hrow.brace c hbrace] at h
      obtain rfl := Except.ok.inj h
      exact brace c hbrace
    · rw [hrow.more c heof hbrace] at h
      obtain ⟨first, hfirst, h⟩ := bind_eq_ok.mp h
      obtain ⟨others, hothers, h⟩ := bind_eq_ok.mp h
      obtain rfl := Except.ok.inj h
      -- what is read takes a token, so the row behind it is shorter
      have hbehind := first.behind
      exact more c first others heof hbrace hfirst (hrow.induction brace more hothers)
termination_by c.remaining

/-- Members are read up to the closing brace of their type. -/
theorem readsRow_members : ReadsRow .typeBody member members where
  eof c h := by rw [members, view_eq_stop h]
  brace c h := by
    obtain ⟨_, _, _, hview⟩ := exists_view_of_current h (by simp)
    rw [members, hview]
    rfl
  more c heof hbrace := by
    rw [members]
    split
    · next hview => exact absurd (current_of_view_stop hview) heof
    · next hview => exact absurd (current_of_view hview) hbrace
    · rfl

/-- Statements are read up to the closing brace of their block. -/
theorem readsRow_statements : ReadsRow .block statement statements where
  eof c h := by rw [statements, view_eq_stop h]
  brace c h := by
    obtain ⟨_, _, _, hview⟩ := exists_view_of_current h (by simp)
    rw [statements, hview]
    rfl
  more c heof hbrace := by
    rw [statements]
    split
    · next hview => exact absurd (current_of_view_stop hview) heof
    · next hview => exact absurd (current_of_view hview) hbrace
    · rfl

/-- Reads a label of a `switch`, or a statement in it. -/
def caseGroup (c : Cursor) : Except SyntaxError (After c (List Outline)) :=
  match c.view with
  | .token (.keyword .case) _ c₁ h₁ => do
    let ⟨classes, c₂, h₂⟩ ← c₁.expression [.colon] 0
    let ⟨_, c₃, h₃⟩ ← c₂.expect .caseEnd
    return ⟨classes, c₃, h₃.trans_from h₂ h₁⟩
  | .token (.modifier .default) _ c₁ h₁ =>
    match c₁.accept? .colon with
    | some ⟨_, c₂, h₂⟩ => return ⟨[], c₂, h₂.trans h₁⟩
    | none => c.statement
  | _ => c.statement

/-- The labels and statements of a `switch` are read up to its closing brace, one label or statement
at a time. -/
theorem readsRow_caseGroups : ReadsRow .switchBody caseGroup caseGroups where
  eof c h := by rw [caseGroups, view_eq_stop h]
  brace c h := by
    obtain ⟨_, _, _, hview⟩ := exists_view_of_current h (by simp)
    rw [caseGroups, hview]
    rfl
  more c heof hbrace := by
    -- the reader of one group looks at the same token as the loop, so both have the same cases
    rw [caseGroups, caseGroup]
    split
    · next hview => exact absurd (current_of_view_stop hview) heof
    · next hview => exact absurd (current_of_view hview) hbrace
    · next hview =>
      rw [hview]
      simp only [bind_assoc, pure_bind]
      rfl
    · next c₁ h₁ hview =>
      rw [hview]
      dsimp only
      cases c₁.accept? .colon with
      | none => rfl
      | some r => rfl
    · next hcase hdefault =>
      split
      · next hview => exact absurd hview (hcase _ _ _)
      · next hview => exact absurd hview (hdefault _ _ _)
      · rfl

/-! ## Nodes in braces -/

/-- Reads a node whose children stand in braces. -/
def braces (opening closing : Mark) (kind : NodeKind)
    (inner : (c : Cursor) → Except SyntaxError (From c (List Outline))) (c : Cursor) :
    Except SyntaxError (After c Outline) := do
  let ⟨s, c₁, h₁⟩ ← c.expect opening
  let ⟨children, c₂, h₂⟩ ← inner c₁
  let ⟨_, c₃, h₃⟩ ← c₂.expect closing
  return ⟨.node kind s children, c₃, h₃.trans_from h₂ h₁⟩

/-- A block is its statements in braces. -/
theorem block_eq : block = braces .blockOpen .blockClose .block statements := by
  funext c
  rw [block]
  rfl

/-- The body of a type is its members in braces. -/
theorem typeBody_eq : typeBody = braces .typeBodyOpen .typeBodyClose .typeBody members := by
  funext c
  rw [typeBody]
  rfl

/-- The body of an enum is its constants and members in braces, with the kind of any other body. -/
theorem enumBody_eq : enumBody = braces .enumBodyOpen .enumBodyClose .typeBody enumConstants := by
  funext c
  rw [enumBody]
  rfl

/-- The body of a switch is its groups in braces, with the kind of a block. -/
theorem switchBody_eq : switchBody = braces .switchOpen .switchClose .block caseGroups := by
  funext c
  rw [switchBody]
  rfl

/-- What a node in braces was read from: its children were read by the inner reader at a place
strictly behind the start, which is where the hypothesis about fewer tokens applies. -/
theorem braces_eq_ok {opening closing : Mark} {kind : NodeKind}
    {inner : (c : Cursor) → Except SyntaxError (From c (List Outline))} {c : Cursor}
    {r : After c Outline} (h : braces opening closing kind inner c = .ok r) :
    ∃ c₁ r₂ s, c₁.Behind c ∧ inner c₁ = .ok r₂ ∧ r.value = .node kind s r₂.value := by
  obtain ⟨⟨s, c₁, h₁⟩, -, h⟩ := bind_eq_ok.mp h
  obtain ⟨r₂, hinner, h⟩ := bind_eq_ok.mp h
  obtain ⟨⟨_, c₃, h₃⟩, -, h⟩ := bind_eq_ok.mp h
  obtain rfl := Except.ok.inj h
  exact ⟨c₁, r₂, s, h₁, hinner, rfl⟩

/-! ## Units -/

/-- Reads what modifiers may stand in front of: a directive, or the declaration of a type. -/
def withModifiers (c : Cursor) : Except SyntaxError (After c (List Outline)) := do
  let ⟨ms, c₁, h₁⟩ ← c.modifiers
  if c₁.current = .keyword .package then
    let ⟨_, c₂, h₂⟩ ← c₁.directive
    return ⟨[], c₂, h₂.trans_le h₁⟩
  else
    let ⟨type, c₂, h₂⟩ ← c₁.typeDeclaration ms
    return ⟨[type], c₂, h₂.trans_le h₁⟩

/-- Reads one entry of a unit: a semicolon, a directive, or the declaration of a type. -/
def unitEntry (c : Cursor) : Except SyntaxError (After c (List Outline)) :=
  match c.view with
  | .token .semicolon _ c₁ h₁ => return ⟨[], c₁, h₁⟩
  | .token (.keyword .package) _ _ _ | .token (.keyword .import) _ _ _ => do
    let ⟨_, c₁, h₁⟩ ← c.directive
    return ⟨[], c₁, h₁⟩
  | _ => c.withModifiers

/-- At the end of the tokens no declarations are read. -/
theorem declarations_of_current {c : Cursor} (h : c.current = .eof) :
    c.declarations = .ok (c.stay []) := by
  rw [declarations, view_eq_stop h]
  rfl

/-- Anywhere else a unit is an entry and what is read behind it. -/
theorem declarations_eq {c : Cursor} (h : c.current ≠ .eof) :
    c.declarations = c.unitEntry >>= fun r => r.rest.declarations >>= fun r' =>
      .ok (r.append r') := by
  -- the entry looks at the same token as the loop, so both have the same cases
  rw [declarations, unitEntry]
  split
  · next hview => exact absurd (current_of_view_stop hview) h
  · next hview =>
    rw [hview]
    rfl
  case h_3 hview | h_4 hview =>
    rw [hview]
    simp only [bind_assoc, pure_bind]
    rfl
  · next hsemicolon hpackage himport =>
    split
    · next hview => exact absurd hview (hsemicolon _ _ _)
    · next hview => exact absurd hview (hpackage _ _ _)
    · next hview => exact absurd hview (himport _ _ _)
    · rw [withModifiers, bind_assoc]
      refine congrArg _ (funext fun r => ?_)
      dsimp only
      split
      · simp only [bind_assoc, pure_bind]
        rfl
      · simp only [bind_assoc, pure_bind]
        rfl

/-- What holds of nothing at the end of the tokens, and of one more entry if it holds of the entries
behind it, holds of every unit that is read. -/
theorem declarations_induction {motive : (c : Cursor) → From c (List Outline) → Prop}
    (eof : ∀ c, c.current = .eof → motive c (c.stay []))
    (more : ∀ c (r : After c (List Outline)) (r' : From r.rest (List Outline)),
      c.current ≠ .eof → c.unitEntry = .ok r → motive r.rest r' → motive c (r.append r'))
    {c : Cursor} {r : From c (List Outline)} (h : c.declarations = .ok r) : motive c r := by
  by_cases heof : c.current = .eof
  · rw [declarations_of_current heof] at h
    obtain rfl := Except.ok.inj h
    exact eof c heof
  · rw [declarations_eq heof] at h
    obtain ⟨first, hfirst, h⟩ := bind_eq_ok.mp h
    obtain ⟨others, hothers, h⟩ := bind_eq_ok.mp h
    obtain rfl := Except.ok.inj h
    have hbehind := first.behind
    exact more c first others heof hfirst (declarations_induction eof more hothers)
termination_by c.remaining

end FieldShadow.Cursor
