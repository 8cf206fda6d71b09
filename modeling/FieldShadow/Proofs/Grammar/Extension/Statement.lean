import FieldShadow.Proofs.Grammar.Extension.Heading
import FieldShadow.Proofs.Grammar.Reading.Member

/-!
# Statements in front of more tokens

What the readers of expressions and statements make of a sequence in front of more tokens. They are
mutually recursive with the readers of type bodies, so everything here is for cursors with at most
`n` tokens and uses what is known of those with fewer (`CarriesBelow`).

## Where the end of the sequence matters

A reader that looks at the next token and goes on if it is the right one could go on into what
stands behind. Statements do so at an `else`, at a `catch` or `finally`, and at a declarator's
comma. None of these is the end of a unit, since every statement stands in a block whose brace is
still to come. So the lemmas about these readers ask for something of the sequence to be left
(`x.floor ≤ r.rest.remaining`); readers that end with a token of their own need no such condition.
-/

namespace FieldShadow.Cursor

/-- A try statement with its resources as a reader of their own. -/
theorem tryRest_eq (c : Cursor) : c.tryRest = (do
    let ⟨resources, c₁, h₁⟩ ← c.optionalArguments
    let ⟨body, c₂, h₂⟩ ← c₁.block
    let ⟨handlers, c₃, h₃⟩ ← c₂.catches
    match c₃.accept? (.keyword .finally) with
    | some ⟨_, c₄, h₄⟩ =>
      let ⟨last, c₅, h₅⟩ ← c₄.block
      return ⟨resources ++ [body] ++ handlers ++ [last], c₅,
        (((h₅.trans h₄).trans_le h₃).trans h₂).trans_le h₁⟩
    | none => return ⟨resources ++ [body] ++ handlers, c₃, (h₃.trans_lt h₂).trans_le h₁⟩) := by
  rw [tryRest]
  unfold optionalArguments
  exact (ite_bind _ _ _).symm

namespace Extension

open Outline

variable {x : Extension}

/-- At every cursor with fewer than `n` tokens left, the readers that come back to each other give
the same in front of more tokens. Behind a statement tokens of the sequence must be left: what
stands behind the sequence could be the `else` of a statement at its end. -/
structure CarriesBelow (x : Extension) (n : Nat) : Prop where
  typeBody : ∀ {c : Cursor} {r : After c Outline}, c.remaining < n → c.typeBody = .ok r →
    c.PlaceIn x.whole →
    (x.cursor c).typeBody = .ok (x.afterOf (moved x.move) r) ∧ r.rest.PlaceIn x.whole
  enumBody : ∀ {c : Cursor} {r : After c Outline}, c.remaining < n → c.enumBody = .ok r →
    c.PlaceIn x.whole →
    (x.cursor c).enumBody = .ok (x.afterOf (moved x.move) r) ∧ r.rest.PlaceIn x.whole
  statement : ∀ {c : Cursor} {r : After c (List Outline)}, c.remaining < n →
    c.statement = .ok r → c.PlaceIn x.whole → x.floor ≤ r.rest.remaining →
    (x.cursor c).statement = .ok (x.afterOf (movedAll x.move) r) ∧ r.rest.PlaceIn x.whole
  expression : ∀ {c : Cursor} {terminators : List Token} {depth : Nat}
    {r : From c (List Outline)}, c.remaining < n → c.expression terminators depth = .ok r →
    c.PlaceIn x.whole →
    (x.cursor c).expression terminators depth = .ok (x.fromOf (movedAll x.move) r) ∧
      r.rest.PlaceIn x.whole

/-- A row of things that are each read in the longer sequence is read there up to its brace. While
tokens are left behind the row, some are left behind each thing in it. -/
theorem row_cursor {n : Nat} {enclosure : Enclosure}
    {one : (c : Cursor) → Except SyntaxError (After c (List Outline))}
    {row : (c : Cursor) → Except SyntaxError (From c (List Outline))}
    (hrow : ReadsRow enclosure one row)
    (hone : ∀ {c : Cursor} {r : After c (List Outline)}, c.remaining < n → one c = .ok r →
      c.PlaceIn x.whole → x.floor ≤ r.rest.remaining →
      one (x.cursor c) = .ok (x.afterOf (movedAll x.move) r) ∧ r.rest.PlaceIn x.whole)
    {c : Cursor} {r : From c (List Outline)} (hn : c.remaining < n) (h : row c = .ok r)
    (hc : c.PlaceIn x.whole) (hl : x.floor ≤ r.rest.remaining) :
    row (x.cursor c) = .ok (x.fromOf (movedAll x.move) r) ∧ r.rest.PlaceIn x.whole := by
  refine hrow.induction (motive := fun c r => c.remaining < n → c.PlaceIn x.whole →
    x.floor ≤ r.rest.remaining →
    row (x.cursor c) = .ok (x.fromOf (movedAll x.move) r) ∧ r.rest.PlaceIn x.whole)
    ?_ ?_ h hn hc hl
  · intro c hbrace _ hc hl
    have hcurrent : (x.cursor c).current = c.current := current_cursor hl
    rw [hrow.brace _ (hcurrent.trans hbrace)]
    exact ⟨by simp [stay, fromOf], hc⟩
  · intro c first others heof hbrace hfirst hothers hn hc hl
    have hcurrent := current_cursor (x := x) (floor_le_of_behind first.behind)
    -- the closing brace is still to come, so the end is not reached within the first thing
    obtain ⟨hfirst, hc₁⟩ := hone hn hfirst hc (Nat.le_trans hl others.notBefore)
    obtain ⟨hothers, hc₂⟩ := hothers (Nat.lt_trans first.behind hn) hc₁ hl
    rw [hrow.more _ (hcurrent.trans_ne heof) (hcurrent.trans_ne hbrace), hfirst, bind_ok]
    exact ⟨by simp [afterOf, hothers, After.append, fromOf], hc₂⟩

/-- A node in braces is read in the longer sequence if its inner reader is, for which the closing
brace leaves something over. -/
theorem braces_cursor {opening closing : Mark} {kind : NodeKind}
    {inner : (c : Cursor) → Except SyntaxError (From c (List Outline))} {c : Cursor}
    {r : After c Outline} (h : braces opening closing kind inner c = .ok r)
    (hc : c.PlaceIn x.whole)
    (hinner : ∀ {c₁ : Cursor} {r₁ : From c₁ (List Outline)}, c₁.Behind c → inner c₁ = .ok r₁ →
      c₁.PlaceIn x.whole → x.floor ≤ r₁.rest.remaining →
      inner (x.cursor c₁) = .ok (x.fromOf (movedAll x.move) r₁) ∧ r₁.rest.PlaceIn x.whole) :
    braces opening closing kind inner (x.cursor c) = .ok (x.afterOf (moved x.move) r) ∧
      r.rest.PlaceIn x.whole := by
  obtain ⟨⟨s, c₁, h₁⟩, hopen, h⟩ := bind_eq_ok.mp h
  obtain ⟨⟨children, c₂, h₂⟩, hchildren, h⟩ := bind_eq_ok.mp h
  obtain ⟨⟨_, c₃, h₃⟩, hclose, h⟩ := bind_eq_ok.mp h
  obtain rfl := Except.ok.inj h
  obtain ⟨hopen, hc₁, -⟩ := expect_cursor hopen hc
  obtain ⟨hchildren, hc₂⟩ := hinner h₁ hchildren hc₁ (floor_le_of_behind h₃)
  obtain ⟨hclose, hc₃, -⟩ := expect_cursor hclose hc₂
  exact ⟨by simp [braces, hopen, afterOf, hchildren, fromOf, hclose], hc₃⟩

section

variable {n : Nat} (ih : x.CarriesBelow n)
include ih

/-- Arguments are read in the longer sequence; they are behind their parenthesis before the sequence
ends. -/
theorem arguments_cursor {c : Cursor} {r : After c (List Outline)} (hn : c.remaining ≤ n)
    (h : c.arguments = .ok r) (hc : c.PlaceIn x.whole) :
    (x.cursor c).arguments = .ok (x.afterOf (movedAll x.move) r) ∧ r.rest.PlaceIn x.whole ∧
      x.floor ≤ r.rest.remaining := by
  rw [arguments] at h ⊢
  obtain ⟨⟨_, c₁, h₁⟩, hopen, h⟩ := bind_eq_ok.mp h
  obtain ⟨⟨classes, c₂, h₂⟩, hclasses, h⟩ := bind_eq_ok.mp h
  obtain ⟨⟨_, c₃, h₃⟩, hclose, h⟩ := bind_eq_ok.mp h
  obtain rfl := Except.ok.inj h
  obtain ⟨hopen, hc₁, -⟩ := expect_cursor hopen hc
  obtain ⟨hclasses, hc₂⟩ := ih.expression (by omega) hclasses hc₁
  obtain ⟨hclose, hc₃, hl₃⟩ := expect_cursor hclose hc₂
  refine ⟨?_, hc₃, hl₃ (by simp)⟩
  simp [hopen, hclasses, hclose, afterOf, fromOf]

/-- A creation is read in the longer sequence. Its class may end the sequence. -/
theorem creation_cursor {c : Cursor} {r : After c (List Outline)} (hn : c.remaining ≤ n)
    (h : c.creation = .ok r) (hc : c.PlaceIn x.whole) :
    (x.cursor c).creation = .ok (x.afterOf (movedAll x.move) r) ∧ r.rest.PlaceIn x.whole := by
  rw [creation] at h ⊢
  obtain ⟨⟨_, c₁, h₁⟩, hnew, h⟩ := bind_eq_ok.mp h
  obtain ⟨⟨_, c₂, h₂⟩, htypes, h⟩ := bind_eq_ok.mp h
  obtain ⟨⟨type, c₃, h₃⟩, htype, h⟩ := bind_eq_ok.mp h
  obtain ⟨hnew, hc₁, hl₁⟩ := expect_cursor hnew hc
  obtain ⟨htypes, hc₂, -⟩ := (typeArguments?_cursor hc₁ (hl₁ (by simp))).of_ok htypes
  obtain ⟨htype, hc₃, hl₃⟩ := typeRef_cursor_of_ok htype hc₂
  simp only [hnew, bind_ok, afterOf, htypes, fromOf, htype, current_cursor hl₃, id]
  dsimp only at h
  split at h
  · next hparen =>
    obtain ⟨⟨arguments, c₄, h₄⟩, harguments, h⟩ := bind_eq_ok.mp h
    obtain ⟨harguments, hc₄, hl₄⟩ := arguments_cursor ih (by omega) harguments hc₃
    simp only [hparen, if_true, harguments, bind_ok, afterOf, current_cursor hl₄]
    dsimp only at h
    split at h
    · -- a class body: its node spans from the brace, which is a token of the row
      next hbrace =>
      obtain ⟨⟨body, c₅, h₅⟩, hbody, h⟩ := bind_eq_ok.mp h
      obtain rfl := Except.ok.inj h
      obtain ⟨hbody, hc₅⟩ := ih.typeBody (by omega) hbody hc₄
      have hlive : 1 ≤ c₄.remaining := by omega
      simp only [hbrace, if_true, hbody, bind_ok, afterOf, span_cursor hlive]
      exact ⟨by simp, hc₅⟩
    · next hbrace =>
      obtain rfl := Except.ok.inj h
      exact ⟨if_neg hbrace, hc₄⟩
  · next hparen =>
    obtain rfl := Except.ok.inj h
    exact ⟨by simp [hparen], hc₃⟩

/-- An expression stops in front of a token of the sequence, so nothing is asked of what it
leaves. -/
theorem expression_cursor {c : Cursor} {terminators : List Token} {depth : Nat}
    {r : From c (List Outline)} (hn : c.remaining ≤ n)
    (h : c.expression terminators depth = .ok r) (hc : c.PlaceIn x.whole) :
    (x.cursor c).expression terminators depth = .ok (x.fromOf (movedAll x.move) r) ∧
      r.rest.PlaceIn x.whole := by
  rw [expression] at h ⊢
  split at h
  · cases h
  · next t s c₁ h₁ hview =>
    simp only [view_token hview]
    split at h
    · next hend =>
      obtain rfl := Except.ok.inj h
      exact ⟨by simp [hend, stay, fromOf], hc⟩
    · next hend =>
      split at h
      · -- a creation takes at least the word `new`, so the induction goes on behind it
        next hnew =>
        obtain ⟨⟨first, c₂, h₂⟩, hfirst, h⟩ := bind_eq_ok.mp h
        obtain ⟨⟨others, c₃, h₃⟩, hothers, h⟩ := bind_eq_ok.mp h
        obtain rfl := Except.ok.inj h
        obtain ⟨hfirst, hc₂⟩ := creation_cursor ih hn hfirst hc
        obtain ⟨hothers, hc₃⟩ := ih.expression (by omega) hothers hc₂
        rw [if_neg hend, if_pos hnew]
        exact ⟨by simp [hfirst, afterOf, hothers, fromOf], hc₃⟩
      · next hnew =>
        obtain ⟨⟨classes, c₂, h₂⟩, hclasses, h⟩ := bind_eq_ok.mp h
        obtain rfl := Except.ok.inj h
        obtain ⟨hclasses, hc₂⟩ := ih.expression (by omega) hclasses (hc.of_view hview)
        rw [if_neg hend, if_neg hnew]
        exact ⟨by simp [hclasses, fromOf], hc₂⟩

/-- The value of a variable is read in the longer sequence if something is left behind it. -/
theorem initializer_cursor {c : Cursor} {r : From c (List Outline)} (hn : c.remaining ≤ n)
    (h : c.initializer = .ok r) (hc : c.PlaceIn x.whole) (hl : x.floor ≤ r.rest.remaining) :
    (x.cursor c).initializer = .ok (x.fromOf (movedAll x.move) r) ∧ r.rest.PlaceIn x.whole := by
  unfold initializer at h ⊢
  rcases accept?_cursor hc (Nat.le_trans hl r.notBefore) .equal with
    ⟨⟨_, c₁, h₁⟩, ha, hb, hc₁, -⟩ | ⟨ha, hb⟩
  · simp only [ha, hb] at h ⊢
    obtain ⟨⟨classes, c₂, h₂⟩, hclasses, h⟩ := bind_eq_ok.mp h
    obtain rfl := Except.ok.inj h
    obtain ⟨hclasses, hc₂⟩ := ih.expression (by omega) hclasses hc₁
    exact ⟨by simp [afterOf, hclasses, fromOf], hc₂⟩
  · simp only [ha, hb] at h ⊢
    obtain rfl := Except.ok.inj h
    exact ⟨by simp [stay, fromOf], hc⟩

/-- Declarators are read in the longer sequence, by induction on what is left. -/
theorem declarators_cursor {c : Cursor} {ms : List Modifier} {type : TypeRef} {name : String}
    {span : Span} {r : From c (List Outline)} (hn : c.remaining ≤ n)
    (h : c.declarators ms type name span = .ok r) (hc : c.PlaceIn x.whole)
    (hl : x.floor ≤ r.rest.remaining) :
    (x.cursor c).declarators ms type name (x.move span) = .ok (x.fromOf (movedAll x.move) r) ∧
      r.rest.PlaceIn x.whole := by
  rw [declarators_eq] at h ⊢
  have hdimensions := dimensions_cursor hc (Nat.le_trans hl r.notBefore) type
  generalize (x.cursor c).dimensions type = q at hdimensions ⊢
  generalize c.dimensions type = p at h hdimensions
  obtain ⟨rfl, hc₁, -⟩ := hdimensions
  obtain ⟨type', c₁, h₁⟩ := p
  obtain ⟨⟨classes, c₂, h₂⟩, hclasses, h⟩ := bind_eq_ok.mp h
  simp only [fromOf]
  -- behind the initializer stands a comma or what the declarators leave
  have hl₂ : x.floor ≤ c₂.remaining := by
    dsimp only at h
    split at h
    · next c₃ h₃ _ => exact floor_le_of_behind h₃
    · obtain rfl := Except.ok.inj h
      exact hl
  obtain ⟨hclasses, hc₂⟩ := initializer_cursor ih (by omega) hclasses hc₁ hl₂
  simp only [hclasses, bind_ok, fromOf]
  dsimp only at h
  rcases accept?_cursor (c := c₂) hc₂ hl₂ .comma with ⟨⟨_, c₃, h₃⟩, ha, hb, hc₃, -⟩ | ⟨ha, hb⟩
  · simp only [ha, hb] at h ⊢
    obtain ⟨⟨⟨name', span'⟩, c₄, h₄⟩, hname, h⟩ := bind_eq_ok.mp h
    obtain ⟨⟨others, c₅, h₅⟩, hothers, h⟩ := bind_eq_ok.mp h
    obtain rfl := Except.ok.inj h
    have hn₄ : c₄.remaining ≤ n := by omega
    obtain ⟨hname, hc₄, -⟩ := name_cursor hname hc₃
    obtain ⟨hothers, hc₅⟩ := declarators_cursor hn₄ hothers hc₄ hl
    exact ⟨by simp [afterOf, hname, hothers, fromOf], hc₅⟩
  · simp only [ha, hb] at h ⊢
    obtain rfl := Except.ok.inj h
    exact ⟨by simp, hc₂⟩
termination_by c.remaining

/-- Statements are read in the longer sequence up to the brace that closes them. -/
theorem statements_cursor {c : Cursor} {r : From c (List Outline)} (hn : c.remaining < n)
    (h : c.statements = .ok r) (hc : c.PlaceIn x.whole) (hl : x.floor ≤ r.rest.remaining) :
    (x.cursor c).statements = .ok (x.fromOf (movedAll x.move) r) ∧ r.rest.PlaceIn x.whole :=
  row_cursor readsRow_statements ih.statement hn h hc hl

/-- A block is read in the longer sequence; its brace may end the sequence. -/
theorem block_cursor {c : Cursor} {r : After c Outline} (hn : c.remaining ≤ n)
    (h : c.block = .ok r) (hc : c.PlaceIn x.whole) :
    (x.cursor c).block = .ok (x.afterOf (moved x.move) r) ∧ r.rest.PlaceIn x.whole := by
  rw [block_eq] at h ⊢
  exact braces_cursor h hc fun hbehind hstatements hc₁ hl =>
    statements_cursor ih (by omega) hstatements hc₁ hl

/-- What is tried here is tried with the same result: a heading is there in both sequences or in
neither. -/
theorem localOrExpression_cursor {c : Cursor} {r : After c (List Outline)} (hn : c.remaining ≤ n)
    (h : c.localOrExpression = .ok r) (hc : c.PlaceIn x.whole) :
    (x.cursor c).localOrExpression = .ok (x.afterOf (movedAll x.move) r) ∧
      r.rest.PlaceIn x.whole := by
  rw [localOrExpression] at h ⊢
  have hl : x.floor ≤ c.remaining := floor_le_of_behind r.behind
  -- both sides decide in the same way whether a declaration stands here
  rcases declarationHead?_cursor hc hl declaratorFollow with
    ⟨⟨⟨ms, type⟩, c₁, h₁⟩, ha, hb, hc₁, -⟩ | ⟨ha, hb⟩
  · simp only [ha, hb] at h ⊢
    obtain ⟨⟨⟨name, span⟩, c₂, h₂⟩, hname, h⟩ := bind_eq_ok.mp h
    obtain ⟨⟨declared, c₃, h₃⟩, hdeclared, h⟩ := bind_eq_ok.mp h
    obtain ⟨⟨_, c₄, h₄⟩, hend, h⟩ := bind_eq_ok.mp h
    obtain rfl := Except.ok.inj h
    obtain ⟨hname, hc₂, -⟩ := name_cursor hname hc₁
    obtain ⟨hdeclared, hc₃⟩ :=
      declarators_cursor (c := c₂) ih (by omega) hdeclared hc₂ (floor_le_of_behind h₄)
    obtain ⟨hend, hc₄, -⟩ := expect_cursor hend hc₃
    exact ⟨by simp [afterOf, hname, hdeclared, fromOf, hend], hc₄⟩
  · simp only [ha, hb] at h ⊢
    obtain ⟨_, hstart, h⟩ := bind_eq_ok.mp h
    obtain ⟨⟨classes, c₁, h₁⟩, hclasses, h⟩ := bind_eq_ok.mp h
    obtain ⟨⟨_, c₂, h₂⟩, hend, h⟩ := bind_eq_ok.mp h
    obtain rfl := Except.ok.inj h
    obtain ⟨hclasses, hc₁⟩ := expression_cursor ih hn hclasses hc
    obtain ⟨hend, hc₂, -⟩ := expect_cursor hend hc₁
    refine ⟨?_, hc₂⟩
    simp [primitiveStart_cursor hstart hc hl, hclasses, fromOf, hend, afterOf]

/-- A label is read in the longer sequence up to its colon; every other token begins a statement
there as here. -/
theorem caseGroup_cursor {c : Cursor} {r : After c (List Outline)} (hn : c.remaining < n)
    (h : c.caseGroup = .ok r) (hc : c.PlaceIn x.whole) (hl : x.floor ≤ r.rest.remaining) :
    (x.cursor c).caseGroup = .ok (x.afterOf (movedAll x.move) r) ∧ r.rest.PlaceIn x.whole := by
  -- every token but the two of a label begins a statement
  have hstatement (h : c.statement = .ok r) := ih.statement hn h hc hl
  rw [caseGroup] at h
  rw [caseGroup, view_cursor (floor_le_of_behind r.behind)]
  cases hview : c.view with
  | stop =>
    rw [hview] at h
    exact hstatement h
  | token t s c₁ h₁ =>
    have hc₁ := hc.of_view hview
    rw [hview] at h
    cases t with
    | keyword w =>
      cases w with
      | case =>
        obtain ⟨⟨classes, c₂, h₂⟩, hclasses, h⟩ := bind_eq_ok.mp h
        obtain ⟨⟨_, c₃, h₃⟩, hcolon, h⟩ := bind_eq_ok.mp h
        obtain rfl := Except.ok.inj h
        obtain ⟨hclasses, hc₂⟩ := ih.expression (by omega) hclasses hc₁
        obtain ⟨hcolon, hc₃, -⟩ := expect_cursor hcolon hc₂
        exact ⟨by simp [view, hclasses, fromOf, hcolon, afterOf], hc₃⟩
      | _ => exact hstatement h
    | modifier m =>
      cases m with
      | default =>
        -- whether `default` begins a label is seen by the token behind it, which is one of the
        -- sequence
        have hl₁ := floor_le_of_view hc hview (by simp)
        simp only [view]
        rcases accept?_cursor (c := c₁) hc₁ hl₁ .colon with
          ⟨⟨_, c₂, h₂⟩, ha, hb, hc₂, -⟩ | ⟨ha, hb⟩
        · simp only [ha, hb] at h ⊢
          obtain rfl := Except.ok.inj h
          exact ⟨by simp [afterOf], hc₂⟩
        · simp only [ha, hb] at h ⊢
          exact hstatement h
      | _ => exact hstatement h
    | _ => exact hstatement h

/-- The groups of a switch are read in the longer sequence. -/
theorem caseGroups_cursor {c : Cursor} {r : From c (List Outline)} (hn : c.remaining < n)
    (h : c.caseGroups = .ok r) (hc : c.PlaceIn x.whole) (hl : x.floor ≤ r.rest.remaining) :
    (x.cursor c).caseGroups = .ok (x.fromOf (movedAll x.move) r) ∧ r.rest.PlaceIn x.whole :=
  row_cursor readsRow_caseGroups (caseGroup_cursor ih) hn h hc hl

theorem switchBody_cursor {c : Cursor} {r : After c Outline} (hn : c.remaining ≤ n)
    (h : c.switchBody = .ok r) (hc : c.PlaceIn x.whole) :
    (x.cursor c).switchBody = .ok (x.afterOf (moved x.move) r) ∧ r.rest.PlaceIn x.whole := by
  rw [switchBody_eq] at h ⊢
  exact braces_cursor h hc fun hbehind hgroups hc₁ hl =>
    caseGroups_cursor ih (by omega) hgroups hc₁ hl

/-- The first clause of a loop is read in the longer sequence. -/
theorem forInitializer_cursor {c : Cursor} {opening : Span} {r : From c (List Outline)}
    (hn : c.remaining ≤ n) (h : c.forInitializer opening = .ok r) (hc : c.PlaceIn x.whole)
    (hl : x.floor ≤ r.rest.remaining) :
    (x.cursor c).forInitializer (x.move opening) = .ok (x.fromOf (movedAll x.move) r) ∧
      r.rest.PlaceIn x.whole := by
  rw [forInitializer] at h ⊢
  rcases declarationHead?_cursor hc (Nat.le_trans hl r.notBefore) declaratorFollow with
    ⟨⟨⟨ms, type⟩, c₁, h₁⟩, ha, hb, hc₁, -⟩ | ⟨ha, hb⟩
  · simp only [ha, hb] at h ⊢
    obtain ⟨⟨⟨name, span⟩, c₂, h₂⟩, hname, h⟩ := bind_eq_ok.mp h
    obtain ⟨⟨declared, c₃, h₃⟩, hdeclared, h⟩ := bind_eq_ok.mp h
    obtain rfl := Except.ok.inj h
    obtain ⟨hname, hc₂, -⟩ := name_cursor hname hc₁
    obtain ⟨hdeclared, hc₃⟩ := declarators_cursor (c := c₂) ih (by omega) hdeclared hc₂ hl
    exact ⟨by simp [afterOf, hname, hdeclared, fromOf], hc₃⟩
  · simp only [ha, hb] at h ⊢
    exact expression_cursor ih hn h hc

/-- The clauses of a loop are read in the longer sequence, of both kinds. -/
theorem forClauses_cursor {c : Cursor} {opening : Span} {r : After c (List Outline)}
    (hn : c.remaining ≤ n) (h : c.forClauses opening = .ok r) (hc : c.PlaceIn x.whole) :
    (x.cursor c).forClauses (x.move opening) = .ok (x.afterOf (movedAll x.move) r) ∧
      r.rest.PlaceIn x.whole := by
  rw [forClauses] at h ⊢
  -- the heading is tried, and it is found on both sides or on neither
  rcases declarationHead?_cursor hc (floor_le_of_behind r.behind) [.colon] with
    ⟨⟨⟨ms, type⟩, c₁, h₁⟩, ha, hb, hc₁, -⟩ | ⟨ha, hb⟩
  · simp only [ha, hb] at h ⊢
    obtain ⟨⟨⟨name, span⟩, c₂, h₂⟩, hname, h⟩ := bind_eq_ok.mp h
    obtain ⟨⟨_, c₃, h₃⟩, hcolon, h⟩ := bind_eq_ok.mp h
    obtain ⟨⟨classes, c₄, h₄⟩, hclasses, h⟩ := bind_eq_ok.mp h
    obtain rfl := Except.ok.inj h
    obtain ⟨hname, hc₂, -⟩ := name_cursor hname hc₁
    obtain ⟨hcolon, hc₃, -⟩ := expect_cursor hcolon hc₂
    have hn₃ : c₃.remaining ≤ n := Nat.le_trans (h₃.trans (h₂.trans h₁)).le hn
    obtain ⟨hclasses, hc₄⟩ := expression_cursor ih hn₃ hclasses hc₃
    exact ⟨by simp [afterOf, hname, hcolon, hclasses, fromOf], hc₄⟩
  · simp only [ha, hb] at h ⊢
    obtain ⟨⟨initializer, c₁, h₁⟩, hinitializer, h⟩ := bind_eq_ok.mp h
    obtain ⟨⟨_, c₂, h₂⟩, hinit, h⟩ := bind_eq_ok.mp h
    obtain ⟨⟨condition, c₃, h₃⟩, hcondition, h⟩ := bind_eq_ok.mp h
    obtain ⟨⟨_, c₄, h₄⟩, hend, h⟩ := bind_eq_ok.mp h
    obtain ⟨⟨update, c₅, h₅⟩, hupdate, h⟩ := bind_eq_ok.mp h
    obtain rfl := Except.ok.inj h
    -- the semicolon behind the initializer is still to come, so it does not reach the end
    obtain ⟨hinitializer, hc₁⟩ :=
      forInitializer_cursor ih hn hinitializer hc (floor_le_of_behind h₂)
    obtain ⟨hinit, hc₂, -⟩ := expect_cursor hinit hc₁
    have hbehind₂ : c₂.Behind c := h₂.trans_le h₁
    have hbehind₄ : c₄.Behind c₂ := h₄.trans_le h₃
    obtain ⟨hcondition, hc₃⟩ := expression_cursor (c := c₂) ih (by omega) hcondition hc₂
    obtain ⟨hend, hc₄, -⟩ := expect_cursor hend hc₃
    obtain ⟨hupdate, hc₅⟩ := expression_cursor (c := c₄) ih (by omega) hupdate hc₄
    refine ⟨?_, hc₅⟩
    simp [hinitializer, fromOf, hinit, afterOf, hcondition, hend, hupdate]

/-- A loop is read in the longer sequence if something is left behind its statement. -/
theorem forRest_cursor {c : Cursor} {r : After c (List Outline)} (hn : c.remaining ≤ n)
    (h : c.forRest = .ok r) (hc : c.PlaceIn x.whole) (hl : x.floor ≤ r.rest.remaining) :
    (x.cursor c).forRest = .ok (x.afterOf (movedAll x.move) r) ∧ r.rest.PlaceIn x.whole := by
  rw [forRest] at h ⊢
  obtain ⟨⟨opening, c₁, h₁⟩, hopen, h⟩ := bind_eq_ok.mp h
  obtain ⟨⟨clauses, c₂, h₂⟩, hclauses, h⟩ := bind_eq_ok.mp h
  obtain ⟨⟨_, c₃, h₃⟩, hclose, h⟩ := bind_eq_ok.mp h
  obtain ⟨⟨body, c₄, h₄⟩, hbody, h⟩ := bind_eq_ok.mp h
  obtain rfl := Except.ok.inj h
  obtain ⟨hopen, hc₁, -⟩ := expect_cursor hopen hc
  obtain ⟨hclauses, hc₂⟩ := forClauses_cursor (c := c₁) ih (by omega) hclauses hc₁
  obtain ⟨hclose, hc₃, -⟩ := expect_cursor hclose hc₂
  have hbehind₃ : c₃.Behind c := h₃.trans (h₂.trans h₁)
  obtain ⟨hbody, hc₄⟩ := ih.statement (c := c₃) (by omega) hbody hc₃ hl
  exact ⟨by simp [hopen, afterOf, hclauses, hclose, hbody], hc₄⟩

/-- Handlers are read in the longer sequence. A further one could come out of what is appended, so
something has to be left behind them. -/
theorem catches_cursor {c : Cursor} {r : From c (List Outline)} (hn : c.remaining ≤ n)
    (h : c.catches = .ok r) (hc : c.PlaceIn x.whole) (hl : x.floor ≤ r.rest.remaining) :
    (x.cursor c).catches = .ok (x.fromOf (movedAll x.move) r) ∧ r.rest.PlaceIn x.whole := by
  rw [catches] at h ⊢
  -- tokens of the sequence are left, so no `catch` that stands behind it is taken for a handler
  rcases accept?_cursor hc (Nat.le_trans hl r.notBefore) (.keyword .catch) with
    ⟨⟨clause, c₁, h₁⟩, ha, hb, hc₁, -⟩ | ⟨ha, hb⟩
  · simp only [ha, hb] at h ⊢
    obtain ⟨⟨parameter, c₂, h₂⟩, hparameter, h⟩ := bind_eq_ok.mp h
    obtain ⟨⟨body, c₃, h₃⟩, hbody, h⟩ := bind_eq_ok.mp h
    obtain ⟨⟨others, c₄, h₄⟩, hothers, h⟩ := bind_eq_ok.mp h
    obtain rfl := Except.ok.inj h
    have hbehind₃ : c₃.Behind c := h₃.trans (h₂.trans h₁)
    have hn₃ : c₃.remaining ≤ n := by omega
    obtain ⟨hparameter, hc₂⟩ := catchParameter_cursor hparameter hc₁
    obtain ⟨hbody, hc₃⟩ := block_cursor (c := c₂) ih (by omega) hbody hc₂
    obtain ⟨hothers, hc₄⟩ := catches_cursor hn₃ hothers hc₃ hl
    exact ⟨by simp [afterOf, hparameter, hbody, hothers, fromOf], hc₄⟩
  · simp only [ha, hb] at h ⊢
    obtain rfl := Except.ok.inj h
    exact ⟨by simp [stay, fromOf], hc⟩
termination_by c.remaining

/-- Arguments that may be missing are there in both or in neither. -/
theorem optionalArguments_cursor {c : Cursor} {r : From c (List Outline)} (hn : c.remaining ≤ n)
    (h : c.optionalArguments = .ok r) (hc : c.PlaceIn x.whole) (hl : x.floor ≤ c.remaining) :
    (x.cursor c).optionalArguments = .ok (x.fromOf (movedAll x.move) r) ∧
      r.rest.PlaceIn x.whole ∧ x.floor ≤ r.rest.remaining := by
  unfold optionalArguments at h ⊢
  rw [current_cursor hl]
  split at h
  · next hparen =>
    obtain ⟨r', hr', rfl⟩ := map_eq_ok.mp h
    obtain ⟨hr', hplace⟩ := arguments_cursor ih hn hr' hc
    rw [if_pos hparen, hr']
    exact ⟨rfl, hplace⟩
  · next hparen =>
    obtain rfl := Except.ok.inj h
    rw [if_neg hparen]
    exact ⟨by simp [stay, fromOf], hc, hl⟩

/-- A try statement is read in the longer sequence if something is left behind it. -/
theorem tryRest_cursor {c : Cursor} {r : After c (List Outline)} (hn : c.remaining ≤ n)
    (h : c.tryRest = .ok r) (hc : c.PlaceIn x.whole) (hl : x.floor ≤ r.rest.remaining) :
    (x.cursor c).tryRest = .ok (x.afterOf (movedAll x.move) r) ∧ r.rest.PlaceIn x.whole := by
  rw [tryRest_eq] at h ⊢
  obtain ⟨⟨resources, c₁, h₁⟩, hresources, h⟩ := bind_eq_ok.mp h
  obtain ⟨⟨body, c₂, h₂⟩, hbody, h⟩ := bind_eq_ok.mp h
  obtain ⟨⟨handlers, c₃, h₃⟩, hhandlers, h⟩ := bind_eq_ok.mp h
  -- behind the handlers stands a `finally`, or what the statement leaves
  have hl₃ : x.floor ≤ c₃.remaining := by
    dsimp only at h
    split at h
    · next h₄ _ => exact floor_le_of_behind h₄
    · obtain rfl := Except.ok.inj h
      exact hl
  obtain ⟨hresources, hc₁, -⟩ :=
    optionalArguments_cursor ih hn hresources hc (floor_le_of_behind (h₂.trans_le h₁))
  obtain ⟨hbody, hc₂⟩ := block_cursor (c := c₁) ih (by omega) hbody hc₁
  obtain ⟨hhandlers, hc₃⟩ := catches_cursor (c := c₂) ih (by omega) hhandlers hc₂ hl₃
  simp only [hresources, bind_ok, fromOf, hbody, afterOf, hhandlers]
  dsimp only at h
  rcases accept?_cursor (c := c₃) hc₃ hl₃ (.keyword .finally) with
    ⟨⟨_, c₄, h₄⟩, ha, hb, hc₄, -⟩ | ⟨ha, hb⟩
  · simp only [ha, hb] at h ⊢
    obtain ⟨⟨last, c₅, h₅⟩, hlast, h⟩ := bind_eq_ok.mp h
    obtain rfl := Except.ok.inj h
    obtain ⟨hlast, hc₅⟩ := block_cursor (c := c₄) ih (by omega) hlast hc₄
    exact ⟨by simp [afterOf, hlast], hc₅⟩
  · simp only [ha, hb] at h ⊢
    obtain rfl := Except.ok.inj h
    exact ⟨by simp, hc₃⟩

/-- A declaration of a type is read in the longer sequence; its brace may end the sequence. -/
theorem typeDeclaration_cursor {c : Cursor} {ms : List Modifier} {r : After c Outline}
    (hn : c.remaining ≤ n) (h : c.typeDeclaration ms = .ok r) (hc : c.PlaceIn x.whole) :
    (x.cursor c).typeDeclaration ms = .ok (x.afterOf (moved x.move) r) ∧
      r.rest.PlaceIn x.whole := by
  rw [typeDeclaration] at h ⊢
  obtain ⟨⟨⟨kind, span⟩, c₁, h₁⟩, hheading, h⟩ := bind_eq_ok.mp h
  obtain ⟨hheading, hc₁⟩ := typeHeading_cursor hheading hc
  simp only [hheading, bind_ok, afterOf, Prod.map, id]
  dsimp only at h
  split at h
  · obtain ⟨⟨body, c₂, h₂⟩, hbody, h⟩ := bind_eq_ok.mp h
    obtain rfl := Except.ok.inj h
    obtain ⟨hbody, hc₂⟩ := ih.enumBody (c := c₁) (by omega) hbody hc₁
    exact ⟨by simp [hbody, afterOf], hc₂⟩
  · next hkind =>
    obtain ⟨⟨body, c₂, h₂⟩, hbody, h⟩ := bind_eq_ok.mp h
    obtain rfl := Except.ok.inj h
    obtain ⟨hbody, hc₂⟩ := ih.typeBody (c := c₁) (by omega) hbody hc₁
    refine ⟨?_, hc₂⟩
    cases kind with
    | enumDef => exact absurd rfl (hkind _ _)
    | _ => simp [hbody, afterOf]

/-- Modifiers in front of no type are forgotten on both sides. -/
theorem localClass_cursor {c : Cursor} {r : After c (List Outline)} (hn : c.remaining ≤ n)
    (h : c.localClass = .ok r) (hc : c.PlaceIn x.whole) :
    (x.cursor c).localClass = .ok (x.afterOf (movedAll x.move) r) ∧ r.rest.PlaceIn x.whole := by
  obtain ⟨⟨ms, c₁, h₁⟩, hms, h⟩ := bind_eq_ok.mp h
  obtain ⟨hms, hc₁, hl₁⟩ := modifiers_cursor_of_ok hms hc (floor_le_of_behind r.behind)
  simp only [localClass, hms, bind_ok, fromOf, startsType_cursor hc₁ hl₁, id]
  dsimp only at h
  split at h
  · next hstarts =>
    obtain ⟨⟨type, c₂, h₂⟩, htype, h⟩ := bind_eq_ok.mp h
    obtain rfl := Except.ok.inj h
    obtain ⟨htype, hc₂⟩ := typeDeclaration_cursor (c := c₁) ih (Nat.le_trans h₁ hn) htype hc₁
    exact ⟨by simp [hstarts, htype, afterOf], hc₂⟩
  · next hstarts =>
    rw [if_neg hstarts]
    exact localOrExpression_cursor ih hn h hc

/-- Each step of a statement reads the same in front of more tokens, if it does not end with the
text. -/
theorem statementStep_cursor {c : Cursor} {r : From c (List Outline)} {step : StatementStep}
    (hn : c.remaining < n) (h : step.read c = .ok r) (hc : c.PlaceIn x.whole)
    (hl : x.floor ≤ r.rest.remaining) :
    step.read (x.cursor c) = .ok (x.fromOf (movedAll x.move) r) ∧ r.rest.PlaceIn x.whole := by
  have hle : c.remaining ≤ n := Nat.le_of_lt hn
  have hlive : x.floor ≤ c.remaining := Nat.le_trans hl r.notBefore
  cases step with
  | skip =>
    obtain rfl := Except.ok.inj h
    exact ⟨by simp [StatementStep.read, skip_cursor hlive, fromOf], hc.skip⟩
  | mark m =>
    obtain ⟨r, hmark, h⟩ := bind_eq_ok.mp h
    obtain rfl := Except.ok.inj h
    obtain ⟨hmark, hc₁, -⟩ := expect_cursor hmark hc
    exact ⟨by simp [StatementStep.read, hmark, afterOf, fromOf], hc₁⟩
  | otherwise =>
    rw [StatementStep.read] at h ⊢
    -- an `else` at the very end is excluded by what must still be there behind the statement
    rcases accept?_cursor hc hlive (.keyword .else) with ⟨r₁, ha, hb, hc₁, -⟩ | ⟨ha, hb⟩
    · simp only [ha, hb] at h ⊢
      obtain ⟨r₂, hno, h⟩ := bind_eq_ok.mp h
      obtain rfl := Except.ok.inj h
      obtain ⟨hno, hc₂⟩ := ih.statement (Nat.lt_trans r₁.behind hn) hno hc₁ hl
      exact ⟨by simp [afterOf, fromOf, hno], hc₂⟩
    · simp only [ha, hb] at h ⊢
      obtain rfl := Except.ok.inj h
      exact ⟨rfl, hc⟩
  | expression => exact expression_cursor ih hle h hc
  | arguments =>
    obtain ⟨r, hclasses, h⟩ := bind_eq_ok.mp h
    obtain rfl := Except.ok.inj h
    obtain ⟨hclasses, hc₁, -⟩ := arguments_cursor ih hle hclasses hc
    exact ⟨by simp [StatementStep.read, hclasses, After.toFrom, afterOf, fromOf], hc₁⟩
  | statement =>
    obtain ⟨r, hbody, h⟩ := bind_eq_ok.mp h
    obtain rfl := Except.ok.inj h
    obtain ⟨hbody, hc₁⟩ := ih.statement hn hbody hc hl
    exact ⟨by simp [StatementStep.read, hbody, After.toFrom, afterOf, fromOf], hc₁⟩
  | block =>
    obtain ⟨r, hbody, h⟩ := bind_eq_ok.mp h
    obtain rfl := Except.ok.inj h
    obtain ⟨hbody, hc₁⟩ := block_cursor ih hle hbody hc
    exact ⟨by simp [StatementStep.read, hbody, After.toFrom, After.single, afterOf, fromOf], hc₁⟩
  | switchBody =>
    obtain ⟨r, hbody, h⟩ := bind_eq_ok.mp h
    obtain rfl := Except.ok.inj h
    obtain ⟨hbody, hc₁⟩ := switchBody_cursor ih hle hbody hc
    exact ⟨by simp [StatementStep.read, hbody, After.toFrom, After.single, afterOf, fromOf], hc₁⟩
  | forRest =>
    obtain ⟨r, hparts, h⟩ := bind_eq_ok.mp h
    obtain rfl := Except.ok.inj h
    obtain ⟨hparts, hc₁⟩ := forRest_cursor ih hle hparts hc hl
    exact ⟨by simp [StatementStep.read, hparts, After.toFrom, afterOf, fromOf], hc₁⟩
  | tryRest =>
    obtain ⟨r, hparts, h⟩ := bind_eq_ok.mp h
    obtain rfl := Except.ok.inj h
    obtain ⟨hparts, hc₁⟩ := tryRest_cursor ih hle hparts hc hl
    exact ⟨by simp [StatementStep.read, hparts, After.toFrom, afterOf, fromOf], hc₁⟩

/-- A step that is not the last one does not end with the text, since the later ones leave as much
as they find or less. -/
theorem readAll_cursor {c : Cursor} {r : From c (List Outline)} {steps : List StatementStep}
    (hn : c.remaining < n) (h : StatementStep.readAll c steps = .ok r) (hc : c.PlaceIn x.whole)
    (hl : x.floor ≤ r.rest.remaining) :
    StatementStep.readAll (x.cursor c) steps = .ok (x.fromOf (movedAll x.move) r) ∧
      r.rest.PlaceIn x.whole := by
  induction steps generalizing c with
  | nil =>
    obtain rfl := Except.ok.inj h
    exact ⟨rfl, hc⟩
  | cons step steps ihSteps =>
    obtain ⟨r₁, hfirst, h⟩ := bind_eq_ok.mp h
    obtain ⟨r₂, hothers, h⟩ := bind_eq_ok.mp h
    obtain rfl := Except.ok.inj h
    obtain ⟨hfirst, hc₁⟩ :=
      statementStep_cursor ih hn hfirst hc (Nat.le_trans hl r₂.notBefore)
    obtain ⟨hothers, hc₂⟩ := ihSteps (Nat.lt_of_le_of_lt r₁.notBefore hn) hothers hc₁ hl
    exact ⟨by simp [StatementStep.readAll, hfirst, fromOf, hothers], hc₂⟩

/-- A statement is read in the longer sequence if something is left behind it. Without that an
`else` or a handler could follow in the longer one. -/
theorem statement_cursor {c : Cursor} {r : After c (List Outline)} (hn : c.remaining ≤ n)
    (h : c.statement = .ok r) (hc : c.PlaceIn x.whole) (hl : x.floor ≤ r.rest.remaining) :
    (x.cursor c).statement = .ok (x.afterOf (movedAll x.move) r) ∧ r.rest.PlaceIn x.whole := by
  rw [statement_eq] at h ⊢
  rw [statementForm_cursor hc (floor_le_of_behind r.behind)]
  -- the form is chosen from two tokens, which are the same in both
  generalize statementForm c.current c.following = form at h ⊢
  cases form with
  | block =>
    obtain ⟨r, hbody, h⟩ := bind_eq_ok.mp h
    obtain rfl := Except.ok.inj h
    obtain ⟨hbody, hc₁⟩ := block_cursor ih hn hbody hc
    exact ⟨by simp [StatementForm.read, hbody, After.single, afterOf], hc₁⟩
  | row steps =>
    rw [StatementForm.read] at h ⊢
    cases hview : c.view with
    | stop =>
      rw [hview] at h
      cases h
    | token t s c₁ h₁ =>
      rw [hview] at h
      rw [view_token hview]
      obtain ⟨r, hsteps, h⟩ := bind_eq_ok.mp h
      obtain rfl := Except.ok.inj h
      obtain ⟨hsteps, hc₁⟩ :=
        readAll_cursor ih (Nat.lt_of_lt_of_le h₁ hn) hsteps (hc.of_view hview) hl
      exact ⟨by simp [hsteps, From.after, fromOf, afterOf], hc₁⟩
  | localClass => exact localClass_cursor ih hn h hc
  | localOrExpression => exact localOrExpression_cursor ih hn h hc

end

end Extension

end FieldShadow.Cursor
