import FieldShadow.Proofs.Grammar.Extension.Statement

/-!
# Declarations in front of more tokens

What the readers of type bodies and of whole units make of a sequence in front of more tokens, and
with that the mutual induction over the readers that nest (`carriesBelow`). A unit that stands in
front of another is read as the two after each other (`declarations_cursor`).

## Where one unit ends

A unit ends where a declaration could begin, that is, anywhere behind a declaration; so the reader
goes on with the second unit by itself. All that has to be seen is that no declaration of the first
unit reaches into the second. Type declarations end with a brace and directives with a semicolon,
and the last token of a unit is one of the two or there is none (`closed_of_declarations`). This
also tells which annotations in the first unit are closed in it.
-/

namespace FieldShadow.Cursor

/-- Reads a constant of an enum and what follows it. -/
def constantsFrom (c : Cursor) : Except SyntaxError (From c (List Outline)) := do
  let ⟨constant, c₁, h₁⟩ ← c.enumConstant
  let ⟨others, c₂, h₂⟩ ← c₁.enumConstants
  return ⟨constant :: others, c₂, h₂.of_behind h₁⟩

namespace Extension

open Outline

variable {x : Extension}

section

variable {n : Nat} (ih : x.CarriesBelow n)
include ih

/-- Whether a body follows is seen by one token, and that is one of the sequence. -/
theorem optionalBody_cursor {c : Cursor} {r : From c (List Outline)} (hn : c.remaining < n)
    (h : c.optionalBody = .ok r) (hc : c.PlaceIn x.whole) (hl : x.floor ≤ c.remaining) :
    (x.cursor c).optionalBody = .ok (x.fromOf (movedAll x.move) r) ∧ r.rest.PlaceIn x.whole := by
  unfold optionalBody at h ⊢
  rw [current_cursor hl]
  split at h
  · next hbrace =>
    obtain ⟨⟨body, c₁, h₁⟩, hbody, h⟩ := bind_eq_ok.mp h
    obtain rfl := Except.ok.inj h
    obtain ⟨hbody, hc₁⟩ := ih.typeBody hn hbody hc
    exact ⟨by simp [hbrace, hbody, afterOf, fromOf], hc₁⟩
  · next hbrace =>
    obtain rfl := Except.ok.inj h
    rw [if_neg hbrace]
    exact ⟨by simp [stay, fromOf], hc⟩

/-- The constant of an enum is read in the longer sequence, with its arguments and its body there in
both or in neither. -/
theorem enumConstant_cursor {c : Cursor} {r : After c Outline} (hn : c.remaining ≤ n)
    (h : c.enumConstant = .ok r) (hc : c.PlaceIn x.whole) :
    (x.cursor c).enumConstant = .ok (x.afterOf (moved x.move) r) ∧ r.rest.PlaceIn x.whole := by
  rw [enumConstant_eq] at h ⊢
  obtain ⟨⟨_, c₁, h₁⟩, hms, h⟩ := bind_eq_ok.mp h
  obtain ⟨⟨⟨name, span⟩, c₂, h₂⟩, hname, h⟩ := bind_eq_ok.mp h
  obtain ⟨⟨arguments, c₃, h₃⟩, harguments, h⟩ := bind_eq_ok.mp h
  obtain ⟨⟨body, c₄, h₄⟩, hbody, h⟩ := bind_eq_ok.mp h
  obtain rfl := Except.ok.inj h
  have hn₂ : c₂.remaining < n := Nat.lt_of_lt_of_le (h₂.trans_le h₁) hn
  obtain ⟨hms, hc₁, -⟩ := modifiers_cursor_of_ok hms hc (floor_le_of_behind (h₂.trans_le h₁))
  obtain ⟨hname, hc₂, hl₂⟩ := name_cursor hname hc₁
  obtain ⟨harguments, hc₃, hl₃⟩ :=
    optionalArguments_cursor (c := c₂) ih (Nat.le_of_lt hn₂) harguments hc₂ hl₂
  obtain ⟨hbody, hc₄⟩ := optionalBody_cursor (c := c₃) ih (Nat.lt_of_le_of_lt h₃ hn₂) hbody hc₃ hl₃
  refine ⟨?_, hc₄⟩
  simp [hms, fromOf, hname, afterOf, harguments, hbody]

/-- What a method ends with is read in the longer sequence: a semicolon or a block, either of which
may end it. -/
theorem methodBody_cursor {c : Cursor} {r : After c (List Outline)} (hn : c.remaining ≤ n)
    (h : c.methodBody = .ok r) (hc : c.PlaceIn x.whole) :
    (x.cursor c).methodBody = .ok (x.afterOf (movedAll x.move) r) ∧ r.rest.PlaceIn x.whole := by
  rw [methodBody] at h ⊢
  obtain ⟨⟨_, c₁, h₁⟩, hclauses, h⟩ := bind_eq_ok.mp h
  obtain ⟨hclauses, hc₁⟩ := methodClauses_cursor hclauses hc
  simp only [hclauses, bind_ok, fromOf]
  have hblock {r' : After c₁ Outline} (h : c₁.block = .ok r') :=
    block_cursor ih (Nat.le_trans h₁ hn) h hc₁
  dsimp only at h
  split at h
  · next s c₂ h₂ hview =>
    obtain rfl := Except.ok.inj h
    rw [view_token hview]
    exact ⟨by simp [afterOf], hc₁.of_view hview⟩
  · next s c₂ h₂ hview =>
    obtain ⟨⟨classes, c₃, h₃⟩, hclasses, h⟩ := bind_eq_ok.mp h
    obtain ⟨⟨_, c₄, h₄⟩, hend, h⟩ := bind_eq_ok.mp h
    obtain rfl := Except.ok.inj h
    obtain ⟨hclasses, hc₃⟩ :=
      expression_cursor (c := c₂) ih (by omega) hclasses (hc₁.of_view hview)
    obtain ⟨hend, hc₄, -⟩ := expect_cursor hend hc₃
    rw [view_token hview]
    exact ⟨by simp [hclasses, fromOf, hend, afterOf], hc₄⟩
  · -- not a semicolon and not a default value, so the body is a block in both
    next hsemicolon hdefault =>
    obtain ⟨⟨body, c₂, h₂⟩, hbody, h⟩ := bind_eq_ok.mp h
    obtain rfl := Except.ok.inj h
    obtain ⟨hbody, hc₂⟩ := hblock hbody
    refine ⟨?_, hc₂⟩
    rw [view_cursor (floor_le_of_behind h₂)]
    cases hview : c₁.view with
    | stop => simp [view, hbody, afterOf]
    | token t s c₃ h₃ =>
      cases t with
      | semicolon => exact absurd hview (hsemicolon _ _ _)
      | modifier m =>
        cases m with
        | default => exact absurd hview (hdefault _ _ _)
        | _ => simp [view, hbody, afterOf]
      | _ => simp [view, hbody, afterOf]

/-- A constructor is read in the longer sequence. -/
theorem constructor_cursor {c : Cursor} {ms : List Modifier} {r : After c Outline}
    (hn : c.remaining ≤ n) (h : c.constructor ms = .ok r) (hc : c.PlaceIn x.whole) :
    (x.cursor c).constructor ms = .ok (x.afterOf (moved x.move) r) ∧ r.rest.PlaceIn x.whole := by
  rw [constructor] at h ⊢
  obtain ⟨⟨⟨name, span⟩, c₁, h₁⟩, hname, h⟩ := bind_eq_ok.mp h
  obtain ⟨⟨ps, c₂, h₂⟩, hps, h⟩ := bind_eq_ok.mp h
  obtain ⟨⟨_, c₃, h₃⟩, hheader, h⟩ := bind_eq_ok.mp h
  obtain ⟨⟨body, c₄, h₄⟩, hbody, h⟩ := bind_eq_ok.mp h
  obtain rfl := Except.ok.inj h
  have hbehind₃ : c₃.Behind c := (h₃.trans_lt h₂).trans h₁
  obtain ⟨hname, hc₁, -⟩ := name_cursor hname hc
  obtain ⟨hps, hc₂, -⟩ := parameters_cursor hps hc₁
  obtain ⟨hheader, hc₃⟩ := header_cursor hheader hc₂
  obtain ⟨hbody, hc₄⟩ := block_cursor (c := c₃) ih (by omega) hbody hc₃
  exact ⟨by simp [hname, afterOf, hps, hheader, fromOf, hbody], hc₄⟩

/-- The token behind the name decides between a method and fields, and is the same in both
sequences. -/
theorem methodOrFields_cursor {c : Cursor} {ms : List Modifier} {r : After c (List Outline)}
    (hn : c.remaining ≤ n) (h : c.methodOrFields ms = .ok r) (hc : c.PlaceIn x.whole) :
    (x.cursor c).methodOrFields ms = .ok (x.afterOf (movedAll x.move) r) ∧
      r.rest.PlaceIn x.whole := by
  rw [methodOrFields] at h ⊢
  obtain ⟨⟨type, c₁, h₁⟩, htype, h⟩ := bind_eq_ok.mp h
  obtain ⟨⟨⟨name, span⟩, c₂, h₂⟩, hname, h⟩ := bind_eq_ok.mp h
  obtain ⟨htype, hc₁, -⟩ := typeRef_cursor_of_ok htype hc
  obtain ⟨hname, hc₂, hl₂⟩ := name_cursor hname hc₁
  simp only [htype, bind_ok, afterOf, hname, current_cursor hl₂, id, Prod.map]
  dsimp only at h
  split at h
  · next hparen =>
    obtain ⟨⟨ps, c₃, h₃⟩, hps, h⟩ := bind_eq_ok.mp h
    obtain ⟨⟨body, c₄, h₄⟩, hbody, h⟩ := bind_eq_ok.mp h
    obtain rfl := Except.ok.inj h
    have hbehind₃ : c₃.Behind c := h₃.trans (h₂.trans h₁)
    obtain ⟨hps, hc₃, -⟩ := parameters_cursor hps hc₂
    obtain ⟨hbody, hc₄⟩ := methodBody_cursor (c := c₃) ih (by omega) hbody hc₃
    exact ⟨by simp [hparen, hps, afterOf, hbody], hc₄⟩
  · next hparen =>
    obtain ⟨⟨fields, c₃, h₃⟩, hfields, h⟩ := bind_eq_ok.mp h
    obtain ⟨⟨_, c₄, h₄⟩, hend, h⟩ := bind_eq_ok.mp h
    obtain rfl := Except.ok.inj h
    have hbehind₂ : c₂.Behind c := h₂.trans h₁
    -- the semicolon behind the fields is still to come, so no comma behind the sequence is seen
    obtain ⟨hfields, hc₃⟩ :=
      declarators_cursor (c := c₂) ih (by omega) hfields hc₂ (floor_le_of_behind h₄)
    obtain ⟨hend, hc₄, -⟩ := expect_cursor hend hc₃
    exact ⟨by simp [hparen, hfields, fromOf, hend, afterOf], hc₄⟩

/-- A member behind its modifiers is read in the longer sequence; the two tokens that tell what it
is are the same. -/
theorem memberDeclaration_cursor {c : Cursor} {r : After c (List Outline)} (hn : c.remaining ≤ n)
    (h : c.memberDeclaration = .ok r) (hc : c.PlaceIn x.whole) :
    (x.cursor c).memberDeclaration = .ok (x.afterOf (movedAll x.move) r) ∧
      r.rest.PlaceIn x.whole := by
  rw [memberDeclaration] at h ⊢
  obtain ⟨⟨ms, c₁, h₁⟩, hms, h⟩ := bind_eq_ok.mp h
  have hn₁ : c₁.remaining ≤ n := Nat.le_trans h₁ hn
  obtain ⟨hms, hc₁, hl₁⟩ := modifiers_cursor_of_ok hms hc (floor_le_of_behind r.behind)
  simp only [hms, bind_ok, fromOf, startsType_cursor hc₁ hl₁, id]
  dsimp only at h
  split at h
  · next hstarts =>
    obtain ⟨⟨type, c₂, h₂⟩, htype, h⟩ := bind_eq_ok.mp h
    obtain rfl := Except.ok.inj h
    obtain ⟨htype, hc₂⟩ := typeDeclaration_cursor ih hn₁ htype hc₁
    exact ⟨by simp [hstarts, htype, afterOf], hc₂⟩
  · next hstarts =>
    rw [if_neg hstarts]
    obtain ⟨⟨_, c₂, h₂⟩, htypes, h⟩ := bind_eq_ok.mp h
    obtain ⟨htypes, hc₂, hl₂⟩ := (typeArguments?_cursor hc₁ hl₁).of_ok htypes
    have hn₂ : c₂.remaining ≤ n := Nat.le_trans h₂ hn₁
    simp only [htypes, bind_ok, fromOf, current_cursor hl₂]
    dsimp only at h
    split at h
    · -- a name with a parenthesis behind it: a constructor
      next name hname hparen =>
      obtain ⟨⟨declared, c₃, h₃⟩, hdeclared, h⟩ := bind_eq_ok.mp h
      obtain rfl := Except.ok.inj h
      obtain ⟨hdeclared, hc₃⟩ := constructor_cursor ih hn₂ hdeclared hc₂
      refine ⟨?_, hc₃⟩
      simp [hname, hparen, following_cursor_of_current hc₂ hname (by simp) (by simp), hdeclared,
        afterOf]
    · next hno =>
      obtain ⟨⟨declared, c₃, h₃⟩, hdeclared, h⟩ := bind_eq_ok.mp h
      obtain rfl := Except.ok.inj h
      obtain ⟨hdeclared, hc₃⟩ := methodOrFields_cursor ih hn₂ hdeclared hc₂
      refine ⟨?_, hc₃⟩
      split
      · -- an identifier is not the last token, so what follows it is the same
        next name hname hparen =>
        rw [following_cursor_of_current hc₂ hname (by simp) (by simp)] at hparen
        exact absurd hparen (hno name hname)
      · simp [hdeclared, afterOf]

/-- A member is read in the longer sequence. -/
theorem member_cursor {c : Cursor} {r : After c (List Outline)} (hn : c.remaining ≤ n)
    (h : c.member = .ok r) (hc : c.PlaceIn x.whole) :
    (x.cursor c).member = .ok (x.afterOf (movedAll x.move) r) ∧ r.rest.PlaceIn x.whole := by
  have hdeclaration (h : c.memberDeclaration = .ok r) := memberDeclaration_cursor ih hn h hc
  rw [member] at h
  rw [member, view_cursor (floor_le_of_behind r.behind)]
  cases hview : c.view with
  | stop =>
    rw [hview] at h
    exact hdeclaration h
  | token t s c₁ h₁ =>
    have hc₁ := hc.of_view hview
    rw [hview] at h
    cases t with
    | semicolon =>
      obtain rfl := Except.ok.inj h
      exact ⟨by simp [view, afterOf], hc₁⟩
    | leftBrace =>
      obtain ⟨⟨body, c₂, h₂⟩, hbody, h⟩ := bind_eq_ok.mp h
      obtain rfl := Except.ok.inj h
      obtain ⟨hbody, hc₂⟩ := block_cursor ih hn hbody hc
      exact ⟨by simp [view, hbody, afterOf], hc₂⟩
    | modifier m =>
      cases m with
      -- `static` is a modifier unless a brace follows, which makes it an initializer
      | static =>
        simp only [view, current_cursor (floor_le_of_view hc hview (by simp))]
        dsimp only at h
        split at h
        · next hbrace =>
          obtain ⟨⟨body, c₂, h₂⟩, hbody, h⟩ := bind_eq_ok.mp h
          obtain rfl := Except.ok.inj h
          obtain ⟨hbody, hc₂⟩ := block_cursor ih (Nat.le_trans h₁.le hn) hbody hc₁
          exact ⟨by simp [hbrace, hbody, afterOf], hc₂⟩
        · next hbrace =>
          rw [if_neg hbrace]
          exact hdeclaration h
      | _ => exact hdeclaration h
    | _ => exact hdeclaration h

/-- Members are read in the longer sequence up to the brace that closes them. -/
theorem members_cursor {c : Cursor} {r : From c (List Outline)} (hn : c.remaining ≤ n)
    (h : c.members = .ok r) (hc : c.PlaceIn x.whole) (hl : x.floor ≤ r.rest.remaining) :
    (x.cursor c).members = .ok (x.fromOf (movedAll x.move) r) ∧ r.rest.PlaceIn x.whole :=
  row_cursor readsRow_members
    (fun hn h hc _ => member_cursor ih (Nat.le_of_lt_succ hn) h hc) (Nat.lt_succ_of_le hn) h hc hl

theorem enumConstants_cursor {c : Cursor} {r : From c (List Outline)} (hn : c.remaining ≤ n)
    (h : c.enumConstants = .ok r) (hc : c.PlaceIn x.whole) (hl : x.floor ≤ r.rest.remaining) :
    (x.cursor c).enumConstants = .ok (x.fromOf (movedAll x.move) r) ∧
      r.rest.PlaceIn x.whole := by
  have hconstant (h : c.constantsFrom = .ok r) :
      (x.cursor c).constantsFrom = .ok (x.fromOf (movedAll x.move) r) ∧
        r.rest.PlaceIn x.whole := by
    obtain ⟨⟨constant, c₁, h₁⟩, hconstant, h⟩ := bind_eq_ok.mp h
    obtain ⟨⟨others, c₂, h₂⟩, hothers, h⟩ := bind_eq_ok.mp h
    obtain rfl := Except.ok.inj h
    obtain ⟨hconstant, hc₁⟩ := enumConstant_cursor ih hn hconstant hc
    have hn₁ : c₁.remaining ≤ n := Nat.le_trans h₁.le hn
    obtain ⟨hothers, hc₂⟩ := enumConstants_cursor hn₁ hothers hc₁ hl
    exact ⟨by simp [constantsFrom, hconstant, afterOf, hothers, fromOf], hc₂⟩
  rw [enumConstants] at h
  rw [enumConstants, view_cursor (Nat.le_trans hl r.notBefore)]
  cases hview : c.view with
  | stop =>
    rw [hview] at h
    exact hconstant h
  | token t s c₁ h₁ =>
    have hc₁ := hc.of_view hview
    have hn₁ : c₁.remaining ≤ n := Nat.le_trans h₁.le hn
    rw [hview] at h
    cases t with
    | semicolon =>
      obtain ⟨⟨members, c₂, h₂⟩, hmembers, h⟩ := bind_eq_ok.mp h
      obtain rfl := Except.ok.inj h
      obtain ⟨hmembers, hc₂⟩ := members_cursor ih hn₁ hmembers hc₁ hl
      exact ⟨by simp [view, hmembers, fromOf], hc₂⟩
    | rightBrace =>
      obtain rfl := Except.ok.inj h
      exact ⟨by simp [view, stay, fromOf], hc⟩
    -- a comma between constants is passed over, also where none stands before it
    | comma =>
      obtain ⟨⟨others, c₂, h₂⟩, hothers, h⟩ := bind_eq_ok.mp h
      obtain rfl := Except.ok.inj h
      obtain ⟨hothers, hc₂⟩ := enumConstants_cursor hn₁ hothers hc₁ hl
      exact ⟨by simp [view, hothers, fromOf], hc₂⟩
    | _ => exact hconstant h
termination_by c.remaining

/-- The body of a type is read in the longer sequence; its brace may end the sequence. -/
theorem typeBody_cursor {c : Cursor} {r : After c Outline} (hn : c.remaining ≤ n)
    (h : c.typeBody = .ok r) (hc : c.PlaceIn x.whole) :
    (x.cursor c).typeBody = .ok (x.afterOf (moved x.move) r) ∧ r.rest.PlaceIn x.whole := by
  rw [typeBody_eq] at h ⊢
  exact braces_cursor h hc fun hbehind hmembers hc₁ hl =>
    members_cursor ih (by omega) hmembers hc₁ hl

theorem enumBody_cursor {c : Cursor} {r : After c Outline} (hn : c.remaining ≤ n)
    (h : c.enumBody = .ok r) (hc : c.PlaceIn x.whole) :
    (x.cursor c).enumBody = .ok (x.afterOf (moved x.move) r) ∧ r.rest.PlaceIn x.whole := by
  rw [enumBody_eq] at h ⊢
  exact braces_cursor h hc fun hbehind hconstants hc₁ hl =>
    enumConstants_cursor ih (by omega) hconstants hc₁ hl

end

/-- The readers that nest last in front of more tokens. -/
theorem carriesBelow (x : Extension) (n : Nat) : x.CarriesBelow n := by
  induction n with
  | zero => constructor <;> exact fun hn => absurd hn (Nat.not_lt_zero _)
  | succ n ih => exact {
      typeBody := fun hn => typeBody_cursor ih (Nat.le_of_lt_succ hn)
      enumBody := fun hn => enumBody_cursor ih (Nat.le_of_lt_succ hn)
      statement := fun hn => statement_cursor ih (Nat.le_of_lt_succ hn)
      expression := fun hn => expression_cursor ih (Nat.le_of_lt_succ hn) }

/-! ## Units -/

/-- Behind modifiers a directive or a type is read in the longer sequence. -/
theorem withModifiers_cursor {c : Cursor} {r : After c (List Outline)}
    (h : c.withModifiers = .ok r) (hc : c.PlaceIn x.whole) :
    (x.cursor c).withModifiers = .ok (x.afterOf (movedAll x.move) r) ∧ r.rest.PlaceIn x.whole := by
  have hl := floor_le_of_behind (x := x) r.behind
  rw [withModifiers] at h ⊢
  obtain ⟨⟨ms, c₁, h₁⟩, hms, h⟩ := bind_eq_ok.mp h
  obtain ⟨hms, hc₁, hl₁⟩ := modifiers_cursor_of_ok hms hc hl
  -- the token behind the modifiers is one of the sequence, so both readers choose alike
  simp only [hms, bind_ok, fromOf, current_cursor hl₁, id]
  dsimp only at h
  split at h
  · next hpackage =>
    obtain ⟨⟨_, c₂, h₂⟩, hdirective, h⟩ := bind_eq_ok.mp h
    obtain rfl := Except.ok.inj h
    obtain ⟨hdirective, hc₂⟩ := directive_cursor hdirective hc₁
    exact ⟨by simp [hpackage, hdirective, afterOf], hc₂⟩
  · next hpackage =>
    obtain ⟨⟨type, c₂, h₂⟩, htype, h⟩ := bind_eq_ok.mp h
    obtain rfl := Except.ok.inj h
    obtain ⟨htype, hc₂⟩ :=
      typeDeclaration_cursor (carriesBelow x c₁.remaining) (Nat.le_refl _) htype hc₁
    exact ⟨by simp [hpackage, htype, afterOf], hc₂⟩

/-- An entry is read in the longer sequence, as it ends within the first. -/
theorem unitEntry_cursor {c : Cursor} {r : After c (List Outline)} (h : c.unitEntry = .ok r)
    (hc : c.PlaceIn x.whole) :
    (x.cursor c).unitEntry = .ok (x.afterOf (movedAll x.move) r) ∧ r.rest.PlaceIn x.whole := by
  -- every token but three begins modifiers or a type
  have hdeclaration (h : c.withModifiers = .ok r) := withModifiers_cursor h hc
  rw [unitEntry] at h
  rw [unitEntry, view_cursor (floor_le_of_behind r.behind)]
  cases hview : c.view with
  | stop =>
    rw [hview] at h
    exact hdeclaration h
  | token t s c₁ h₁ =>
    rw [hview] at h
    cases t with
    | semicolon =>
      obtain rfl := Except.ok.inj h
      exact ⟨by simp [view, afterOf], hc.of_view hview⟩
    | keyword w =>
      cases w with
      | package | «import» =>
        obtain ⟨⟨_, c₂, h₂⟩, hdirective, h⟩ := bind_eq_ok.mp h
        obtain rfl := Except.ok.inj h
        obtain ⟨hdirective, hc₂⟩ := directive_cursor hdirective hc
        exact ⟨by simp [view, hdirective, afterOf], hc₂⟩
      | _ => exact hdeclaration h
    | _ => exact hdeclaration h

/-- A unit in front of another is read as the declarations of both. -/
theorem declarations_cursor {c : Cursor} {r : From c (List Outline)}
    {r' : From x.more (List Outline)} (h : c.declarations = .ok r)
    (hmore : x.more.declarations = .ok r') (hc : c.PlaceIn x.whole)
    (heof : ∀ l ∈ x.whole.pending, l.token ≠ .eof) :
    ∃ r₀, (x.cursor c).declarations = .ok r₀ ∧ r₀.value = movedAll x.move r.value ++ r'.value := by
  refine declarations_induction (motive := fun c r => c.PlaceIn x.whole →
    ∃ r₀, (x.cursor c).declarations = .ok r₀ ∧ r₀.value = movedAll x.move r.value ++ r'.value)
    ?_ ?_ h hc
  · -- at its end the first source goes on as the second one, which is where the hypothesis on the
    -- second comes in
    intro c hcurrent hc
    obtain ⟨pending, stop⟩ := c
    obtain rfl : pending = [] := hc.pending_eq_nil heof hcurrent
    exact ⟨r', hmore, by simp [stay]⟩
  · intro c first others hcurrent hfirst hothers hc
    have hcurrent' := current_cursor (x := x) (floor_le_of_behind first.behind)
    obtain ⟨hfirst, hc₁⟩ := unitEntry_cursor hfirst hc
    obtain ⟨r₀, hothers, hvalue⟩ := hothers hc₁
    rw [declarations_eq (hcurrent'.trans_ne hcurrent), hfirst, bind_ok]
    exact ⟨_, by simp only [afterOf, hothers, bind_ok]; rfl, by simp [After.append, hvalue]⟩

/-! ## The last token of a unit -/

/-- No further tokens, and the spans moved. -/
def alone (whole : Cursor) (move : Span → Span)
    (hmove : ∀ s t, move (s.to t) = (move s).to (move t)) (stop : Span) : Extension where
  whole := whole
  more := ⟨[], stop⟩
  move := move
  move_to := hmove
  ends h := absurd rfl h
  closes h := absurd rfl h

end Extension

open Extension

/-- The token in front of the cursor is a brace or a semicolon. -/
def BehindEnd (c whole : Cursor) : Prop :=
  ∃ c' t s h, PlaceIn c' whole ∧ c'.view = .token t s c h ∧ (t = .rightBrace ∨ t = .semicolon)

/-- A place behind the end of a declaration is a place of the unit. -/
theorem BehindEnd.place {c whole : Cursor} (h : c.BehindEnd whole) : c.PlaceIn whole := by
  obtain ⟨c', t, s, h', hc', hview, -⟩ := h
  exact hc'.of_view hview

/-- A unit that such a place ends is closed. -/
theorem BehindEnd.closed {c whole : Cursor} (h : c.BehindEnd whole) (hnil : c.pending = []) :
    whole.Closed := by
  obtain ⟨c', t, s, h', hc', hview, ht⟩ := h
  intro l hl
  obtain rfl := Option.some.inj ((hc'.getLast?_of_view hview hnil).symm.trans hl)
  exact ht

/-- Behind a closing brace or a semicolon a declaration may end. -/
theorem behindEnd_expect {c whole : Cursor} {m : Mark} {r : After c Span}
    (h : c.expect m = .ok r) (hc : c.PlaceIn whole)
    (hm : m.token = .rightBrace ∨ m.token = .semicolon) : r.rest.BehindEnd whole := by
  unfold expect accept? at h
  cases hview : c.view with
  | stop =>
    rw [hview] at h
    cases h
  | token t s c₁ h₁ =>
    rw [hview] at h
    by_cases ht : t = m.token
    · simp only [if_pos ht] at h
      obtain rfl := Except.ok.inj h
      exact ⟨c, t, s, h₁, hc, hview, ht ▸ hm⟩
    · simp only [if_neg ht] at h
      cases h

/-- A directive ends with its semicolon. -/
theorem behindEnd_directive {c whole : Cursor} {r : After c Unit} (h : c.directive = .ok r)
    (hc : c.PlaceIn whole) : r.rest.BehindEnd whole := by
  rw [directive] at h
  split at h
  · cases h
  · next t s c₁ h₁ hview =>
    split at h
    · next ht =>
      obtain rfl := Except.ok.inj h
      exact ⟨c, t, s, h₁, hc, hview, .inr ht⟩
    · obtain ⟨⟨_, c₂, h₂⟩, hrest, h⟩ := bind_eq_ok.mp h
      obtain rfl := Except.ok.inj h
      have hinner := behindEnd_directive hrest (hc.of_view hview)
      exact hinner
termination_by c.remaining

/-- A node in braces ends with its brace. -/
theorem behindEnd_braces {opening closing : Mark} {kind : NodeKind}
    {inner : (c : Cursor) → Except SyntaxError (From c (List Outline))} {c whole : Cursor}
    {r : After c Outline} (h : braces opening closing kind inner c = .ok r)
    (hclosing : closing.token = .rightBrace) (hc : c.PlaceIn whole)
    (hinner : ∀ {c₁ : Cursor} {r₁ : From c₁ (List Outline)}, inner c₁ = .ok r₁ →
      c₁.PlaceIn whole → r₁.rest.PlaceIn whole) : r.rest.BehindEnd whole := by
  obtain ⟨⟨s, c₁, h₁⟩, hopen, h⟩ := bind_eq_ok.mp h
  obtain ⟨⟨children, c₂, h₂⟩, hchildren, h⟩ := bind_eq_ok.mp h
  obtain ⟨⟨_, c₃, h₃⟩, hclose, h⟩ := bind_eq_ok.mp h
  obtain rfl := Except.ok.inj h
  have hc₁ := (expect_cursor (x := alone whole id (fun _ _ => rfl) whole.stop) hopen hc).2.1
  have hend := behindEnd_expect hclose (hinner hchildren hc₁) (.inl hclosing)
  exact hend

/-- A type ends with the brace of its body. -/
theorem behindEnd_typeDeclaration {c whole : Cursor} {ms : List Modifier} {r : After c Outline}
    (h : c.typeDeclaration ms = .ok r) (hc : c.PlaceIn whole) : r.rest.BehindEnd whole := by
  -- an extension by no tokens, for what it says of the places that readers end at
  let x := alone whole id (fun _ _ => rfl) whole.stop
  rw [typeDeclaration] at h
  obtain ⟨⟨⟨kind, span⟩, c₁, h₁⟩, hheading, h⟩ := bind_eq_ok.mp h
  have hc₁ := (typeHeading_cursor (x := x) hheading hc).2
  dsimp only at h
  split at h
  · obtain ⟨⟨body, c₂, h₂⟩, hbody, h⟩ := bind_eq_ok.mp h
    obtain rfl := Except.ok.inj h
    rw [enumBody_eq] at hbody
    have hend := behindEnd_braces hbody rfl hc₁ fun h hc =>
      (enumConstants_cursor (carriesBelow x _) (Nat.le_refl _) h hc (Nat.zero_le _)).2
    exact hend
  · obtain ⟨⟨body, c₂, h₂⟩, hbody, h⟩ := bind_eq_ok.mp h
    obtain rfl := Except.ok.inj h
    rw [typeBody_eq] at hbody
    have hend := behindEnd_braces hbody rfl hc₁ fun h hc =>
      (members_cursor (carriesBelow x _) (Nat.le_refl _) h hc (Nat.zero_le _)).2
    exact hend

/-- An entry ends with a semicolon of its own, its directive or its type. -/
theorem behindEnd_unitEntry {c whole : Cursor} {r : After c (List Outline)}
    (h : c.unitEntry = .ok r) (hc : c.PlaceIn whole) : r.rest.BehindEnd whole := by
  rw [unitEntry] at h
  split at h
  · next hview =>
    obtain rfl := Except.ok.inj h
    exact ⟨c, _, _, _, hc, hview, .inr rfl⟩
  case h_2 | h_3 =>
    obtain ⟨⟨_, c₁, h₁⟩, hdirective, h⟩ := bind_eq_ok.mp h
    obtain rfl := Except.ok.inj h
    have hend := behindEnd_directive hdirective hc
    exact hend
  · rw [withModifiers] at h
    obtain ⟨⟨ms, c₁, h₁⟩, hms, h⟩ := bind_eq_ok.mp h
    have hc₁ := (modifiers_cursor_of_ok
      (x := alone whole id (fun _ _ => rfl) whole.stop) hms hc (Nat.zero_le _)).2.1
    dsimp only at h
    split at h
    · obtain ⟨⟨_, c₂, h₂⟩, hdirective, h⟩ := bind_eq_ok.mp h
      obtain rfl := Except.ok.inj h
      have hend := behindEnd_directive hdirective hc₁
      exact hend
    · obtain ⟨⟨type, c₂, h₂⟩, htype, h⟩ := bind_eq_ok.mp h
      obtain rfl := Except.ok.inj h
      have hend := behindEnd_typeDeclaration htype hc₁
      exact hend

/-- What is read as a unit is empty, or it ends with a brace or a semicolon. -/
theorem closed_of_declarations {c whole : Cursor} {r : From c (List Outline)}
    (h : c.declarations = .ok r) (hc : c.PlaceIn whole)
    (heof : ∀ l ∈ whole.pending, l.token ≠ .eof) (hend : c.pending = [] → whole.Closed) :
    whole.Closed := by
  refine declarations_induction (motive := fun c _ => c.PlaceIn whole →
    (c.pending = [] → whole.Closed) → whole.Closed) ?_ ?_ h hc hend
  · exact fun c hcurrent hc hend => hend (hc.pending_eq_nil heof hcurrent)
  · -- the entry that is read last closes the row
    intro c first others _ hfirst hothers hc _
    have hend := behindEnd_unitEntry hfirst hc
    exact hothers hend.place hend.closed

end FieldShadow.Cursor
