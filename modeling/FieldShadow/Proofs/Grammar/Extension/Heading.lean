import FieldShadow.Proofs.Grammar.Extension
import FieldShadow.Proofs.SyntaxTree.Embedding

/-!
# Headings in front of more tokens

What the readers that do not nest make of a sequence in front of more tokens: annotations,
modifiers and types, then parameters and the headings of types and methods. The first three are
tried where a declaration may begin, so for them failures are carried over too. That is where
annotations matter: one that is open at the end of the sequence could be closed by what stands
behind it.

## What is shown of a reader

A reader that is tried gives the same in both sequences or fails in both (`Extension.Follows`), one
that cannot fail gives the same (`Extension.Same`), and of all others it is enough that what they
give in the shorter sequence they give in the longer one. In each case the place that is reached
lies in the shorter sequence, with something of it left where that is needed for going on.
-/

namespace FieldShadow

namespace Cursor

/-- The type of a parameter; an ellipsis behind it makes it an array. -/
def variadic (c : Cursor) (type : TypeRef) : From c TypeRef :=
  match c.accept? .ellipsis with
  | some r => ⟨.array type, r.rest, r.notBefore⟩
  | none => c.stay type

/-- A parameter with its dots as a reader of their own. -/
theorem parameter_eq (c : Cursor) : c.parameter = (do
    let ⟨ms, c₁, h₁⟩ ← c.modifiers
    let ⟨type, c₂, h₂⟩ ← c₁.typeRef
    let ⟨type, c₃, h₃⟩ := c₂.variadic type
    match c₃.accept? (.keyword .this) with
    | some ⟨_, c₄, h₄⟩ => return ⟨[], c₄, ((h₄.trans_le h₃).trans h₂).trans_le h₁⟩
    | none =>
      let ⟨(name, span), c₄, h₄⟩ ← c₃.name .parameter
      let ⟨type, c₅, h₅⟩ := c₄.dimensions type
      return ⟨[.leaf (.parameterDef name ms type) span], c₅,
        (((h₅.trans_lt h₄).trans_le h₃).trans h₂).trans_le h₁⟩) :=
  rfl

/-- Two skips do not move back, at the end neither. -/
theorem notBefore_skip_skip (c : Cursor) : c.skip.skip.NotBefore c :=
  c.skip.notBefore_skip.trans c.notBefore_skip

/-- Passes the words that a type declaration begins with. -/
def headingStart (c : Cursor) : From c Unit :=
  if c.current == .at && c.following == .keyword .interface then
    ⟨(), c.skip.skip, c.notBefore_skip_skip⟩
  else ⟨(), c.skip, c.notBefore_skip⟩

/-- The heading of a type with its words as a reader of their own. -/
theorem typeHeading_eq (c : Cursor) (ms : List Modifier) : c.typeHeading ms = (do
    let ⟨_, c₁, h₁⟩ := c.headingStart
    let ⟨(name, nameSpan), c₂, h₂⟩ ← c₁.name .type
    let ⟨_, c₃, h₃⟩ ← c₂.header
    let span := c.span.to nameSpan
    match c.current with
    | .keyword .class_ => return ⟨(.classDef name ms, span), c₃, (h₃.trans_lt h₂).trans_le h₁⟩
    | .keyword .interface =>
      return ⟨(.interfaceDef name ms, span), c₃, (h₃.trans_lt h₂).trans_le h₁⟩
    | .keyword .enum => return ⟨(.enumDef name ms, span), c₃, (h₃.trans_lt h₂).trans_le h₁⟩
    | .at => return ⟨(.annotationDef name ms, span), c₃, (h₃.trans_lt h₂).trans_le h₁⟩
    | _ => throw (c.fault .typeDeclaration)) :=
  rfl

namespace Extension

open Outline

variable {x : Extension}

/-! ## Annotations -/

/-- A group that is closed ends where it ended. -/
theorem bracketed_cursor {c : Cursor} {depth : Nat} {r : After c Unit}
    (h : c.bracketed depth = .ok r) (hc : c.PlaceIn x.whole) :
    (x.cursor c).bracketed depth = .ok (x.afterOf id r) ∧ r.rest.PlaceIn x.whole := by
  rw [bracketed] at h ⊢
  split at h
  · cases h
  · next t s c₁ h₁ hview =>
    rw [view_token hview]
    split at h
    · next ht =>
      obtain rfl := Except.ok.inj h
      exact ⟨if_pos ht, hc.of_view hview⟩
    · next ht =>
      obtain ⟨⟨_, c₂, h₂⟩, hrest, h⟩ := bind_eq_ok.mp h
      obtain rfl := Except.ok.inj h
      obtain ⟨heq, hplace⟩ := bracketed_cursor hrest (hc.of_view hview)
      simp only [ht, heq]
      exact ⟨rfl, hplace⟩
termination_by c.remaining

/-- A group that is not closed. Only in front of further tokens it could be. -/
theorem bracketed_cursor_error {c : Cursor} {depth : Nat} {e : SyntaxError}
    (h : c.bracketed depth = .error e) :
    e.demand = .balancedBrackets ∧
      (x.more.pending = [] → ∃ e', (x.cursor c).bracketed depth = .error e') := by
  rw [bracketed] at h ⊢
  split at h
  · next hview =>
    obtain rfl := Except.error.inj h
    refine ⟨rfl, fun hmore => ?_⟩
    rw [view_cursor (by simp [floor, hmore]), hview]
    exact ⟨_, rfl⟩
  · next t s c₁ h₁ hview =>
    rw [view_token hview]
    split at h
    · cases h
    · next ht =>
      dsimp only at h
      -- the error is that of the rest, so the claim about it passes on
      cases hrest : c₁.bracketed
          (if t.opens then depth + 1 else if t.closes then depth - 1 else depth) with
      | ok r =>
        rw [hrest] at h
        cases h
      | error e' =>
        rw [hrest] at h
        obtain rfl := Except.error.inj h
        obtain ⟨hdemand, hfail⟩ := bracketed_cursor_error hrest
        refine ⟨hdemand, fun hmore => ?_⟩
        obtain ⟨e'', heq⟩ := hfail hmore
        simp only [ht, heq]
        exact ⟨_, rfl⟩
termination_by c.remaining

/-- The arguments of an annotation, if further tokens cannot come into them. -/
theorem bracketed_follows {c : Cursor} {depth : Nat} (hc : c.PlaceIn x.whole)
    (hclose : x.more.pending ≠ [] → match c.bracketed depth with
      | .ok r => r.rest.remaining ≠ 0
      | .error e => e.demand ≠ .balancedBrackets) :
    x.Follows After.rest (x.afterOf id) (c.bracketed depth) ((x.cursor c).bracketed depth) := by
  by_cases hmore : x.more.pending = []
  · cases h : c.bracketed depth with
    | ok r =>
      obtain ⟨h', hplace⟩ := bracketed_cursor h hc
      exact .inl ⟨r, rfl, h', hplace, by simp [floor, hmore]⟩
    | error e =>
      exact .inr ⟨e, ((bracketed_cursor_error h).2 hmore).imp fun _ => .intro rfl⟩
  · have hclose := hclose hmore
    cases h : c.bracketed depth with
    | ok r =>
      rw [h] at hclose
      obtain ⟨h', hplace⟩ := bracketed_cursor h hc
      exact .inl ⟨r, rfl, h', hplace, Nat.le_trans x.floor_le (Nat.pos_of_ne_zero hclose)⟩
    | error e =>
      rw [h] at hclose
      exact absurd (bracketed_cursor_error (x := x) h).1 hclose

/-- An annotation is read, or fails, on both sides. Only here the longer sequence could go on where
the short one ends, which the condition on annotations rules out. -/
theorem annotationUse_cursor {c : Cursor} (hc : c.PlaceIn x.whole) (hl : x.floor ≤ c.remaining) :
    x.Follows After.rest (x.afterOf id) c.annotationUse (x.cursor c).annotationUse := by
  have hopen : x.more.pending ≠ [] → c.annotationReachesEnd = false :=
    (annotationReachesEnd_eq_false hc · hl)
  unfold annotationReachesEnd at hopen
  rw [annotationUse] at hopen ⊢
  rw [annotationUse]
  -- the name is followed along; it is the group that may run to the end
  refine (expect_follows hc hl (by simp)).bind_after fun _ c₁ h₁ hat hc₁ hl₁ => ?_
  refine (name_follows hc₁ hl₁).bind_after fun _ c₂ h₂ hname hc₂ hl₂ => ?_
  have hsame := qualifiers_cursor hc₂ hl₂
  simp only [hat, hname, bind_ok] at hopen ⊢
  generalize (x.cursor c₂).qualifiers = q at hsame ⊢
  obtain rfl := hsame.eq
  simp only [fromOf, current_cursor hsame.live]
  split
  · next hparen =>
    simp only [hparen, if_true] at hopen
    refine (bracketed_follows hsame.place fun hmore => ?_).bind_after
      fun _ _ _ _ hplace hlive => .inl ⟨_, rfl, rfl, hplace, hlive⟩
    have hopen := hopen hmore
    cases hgroup : c₂.qualifiers.rest.bracketed 0 with
    | ok r =>
      rw [hgroup] at hopen
      exact ne_of_beq_false hopen
    | error e =>
      rw [hgroup] at hopen
      exact ne_of_beq_false hopen
  · exact .inl ⟨_, rfl, rfl, hsame.place, hsame.live⟩

/-- Annotations are read as long as one begins, on both sides. -/
theorem annotationUses_cursor {c : Cursor} (hc : c.PlaceIn x.whole) (hl : x.floor ≤ c.remaining) :
    x.Follows From.rest (x.fromOf id) c.annotationUses (x.cursor c).annotationUses := by
  rw [annotationUses, annotationUses, current_cursor hl]
  split
  · refine (annotationUse_cursor hc hl).bind_after fun _ c₁ h₁ _ hc₁ hl₁ => ?_
    exact (annotationUses_cursor hc₁ hl₁).bind_from fun _ _ _ _ hplace hlive =>
      .inl ⟨_, rfl, rfl, hplace, hlive⟩
  · exact .stay hc hl ()
termination_by c.remaining

/-- A skip leads to corresponding places while enough is left. -/
theorem skip_cursor {c : Cursor} (hl : x.floor ≤ c.remaining) :
    (x.cursor c).skip = x.cursor c.skip := by
  obtain ⟨pending, stop⟩ := c
  cases pending with
  | nil => simp [cursor, skip, more_eq_nil_of_floor hl]
  | cons l rest => rfl

/-- Behind a token that no unit ends with the same token follows on both sides. -/
theorem following_cursor {c c₁ : Cursor} {t : Token} {s : Span} {h : c₁.Behind c}
    (hc : c.PlaceIn x.whole) (hview : c.view = .token t s c₁ h)
    (ht : t ≠ .rightBrace ∧ t ≠ .semicolon) : (x.cursor c).following = c.following := by
  have hl₁ := floor_le_of_view hc hview ht
  obtain ⟨-, rfl⟩ := eq_cons_of_view hview
  exact current_cursor hl₁

/-- In front of more tokens a statement has the same form. What may end the text has its form
whatever stands behind it. -/
theorem statementForm_cursor {c : Cursor} (hc : c.PlaceIn x.whole) (hl : x.floor ≤ c.remaining) :
    statementForm (x.cursor c).current (x.cursor c).following =
      statementForm c.current c.following := by
  rw [current_cursor hl]
  cases hview : c.view with
  | stop =>
    rw [current_of_view_stop hview]
    rfl
  | token t s c₁ h₁ =>
    rw [current_of_view hview]
    by_cases hbrace : t = .rightBrace
    · rw [hbrace]
      rfl
    · by_cases hsemicolon : t = .semicolon
      · rw [hsemicolon]
        rfl
      · rw [following_cursor hc hview ⟨hbrace, hsemicolon⟩]

/-- Modifiers are gathered to corresponding places, annotations among them. -/
theorem modifiers_cursor {c : Cursor} (hc : c.PlaceIn x.whole) (hl : x.floor ≤ c.remaining) :
    x.Follows From.rest (x.fromOf id) c.modifiers (x.cursor c).modifiers := by
  have hstay := Follows.stay hc hl ([] : List Modifier)
  rw [modifiers, modifiers, view_cursor hl]
  cases hview : c.view with
  | stop => exact hstay
  | token t s c₁ h₁ =>
    cases t with
    | modifier m =>
      have hl₁ := floor_le_of_view hc hview (by simp)
      simp only [view, current_cursor hl₁]
      split
      · exact (modifiers_cursor (hc.of_view hview) hl₁).bind_from fun _ _ _ _ hplace hlive =>
          .inl ⟨_, rfl, rfl, hplace, hlive⟩
      · exact hstay
    | «at» =>
      -- `@interface` begins a declaration and is not an annotation
      simp only [view, following_cursor hc hview (by simp)]
      split
      · exact hstay
      · refine (annotationUse_cursor hc hl).bind_after fun _ c₂ h₂ _ hc₂ hl₂ => ?_
        exact (modifiers_cursor hc₂ hl₂).bind_from fun _ _ _ _ hplace hlive =>
          .inl ⟨_, rfl, rfl, hplace, hlive⟩
    | _ => exact hstay
termination_by c.remaining

/-- Types are read, or fail, on both sides. -/
theorem typeRef_cursor {c : Cursor} (hc : c.PlaceIn x.whole) (hl : x.floor ≤ c.remaining) :
    x.Follows After.rest (x.afterOf id) c.typeRef (x.cursor c).typeRef := by
  rw [typeRef, typeRef]
  -- annotations may stand before a type, and the type decides on its first token
  refine (annotationUses_cursor hc hl).bind_from fun _ c₁ h₁ _ hc₁ hl₁ => ?_
  simp only [view_cursor hl₁]
  cases hview : c₁.view with
  | stop => exact .inr ⟨_, _, rfl, rfl⟩
  | token t s c₂ h₂ =>
    have hc₂ := hc₁.of_view hview
    cases t with
    | keyword w =>
      cases w with
      | void =>
        simp only [view]
        have hsame := dimensions_cursor hc₂ (floor_le_of_view hc₁ hview (by simp)) .void
        generalize (x.cursor c₂).dimensions .void = q at hsame ⊢
        obtain rfl := hsame.eq
        exact .inl ⟨_, rfl, rfl, hsame.place, hsame.live⟩
      | _ => exact .inr ⟨_, _, rfl, rfl⟩
    | identifier name =>
      simp only [view]
      have hl₂ := floor_le_of_view hc₁ hview (by simp)
      refine (typeArguments?_cursor hc₂ hl₂).bind_from fun _ c₃ h₃ _ hc₃ hl₃ => ?_
      refine (qualifiedName_cursor hc₃ hl₃ name).bind_from fun full c₄ h₄ _ hc₄ hl₄ => ?_
      have hsame := dimensions_cursor hc₄ hl₄ (.ofName full)
      simp only [id, hsame.eq]
      exact .inl ⟨_, rfl, rfl, hsame.place, hsame.live⟩
    | _ => exact .inr ⟨_, _, rfl, rfl⟩

/-- What a variable declaration begins with, wherever it is tried. -/
theorem declarationHead?_cursor {c : Cursor} (hc : c.PlaceIn x.whole)
    (hl : x.floor ≤ c.remaining) (follow : List Token) :
    (∃ r, c.declarationHead? follow = some r ∧
      (x.cursor c).declarationHead? follow = some (x.afterOf id r) ∧ r.rest.PlaceIn x.whole ∧
      x.floor ≤ r.rest.remaining) ∨
    c.declarationHead? follow = none ∧ (x.cursor c).declarationHead? follow = none := by
  unfold declarationHead?
  -- modifiers and a type are read first, and nothing is decided if either fails
  have hhead : x.Follows After.rest (x.afterOf id)
      (do
        let ⟨ms, c₁, h₁⟩ ← c.modifiers
        let ⟨type, c₂, h₂⟩ ← c₁.typeRef
        return (⟨(ms, type), c₂, h₂.trans_le h₁⟩ : After c (List Modifier × TypeRef)))
      (do
        let ⟨ms, c₁, h₁⟩ ← (x.cursor c).modifiers
        let ⟨type, c₂, h₂⟩ ← c₁.typeRef
        return ⟨(ms, type), c₂, h₂.trans_le h₁⟩) := by
    refine (modifiers_cursor hc hl).bind_from fun ms c₁ h₁ _ hc₁ hl₁ => ?_
    exact (typeRef_cursor hc₁ hl₁).bind_after fun _ _ _ _ hplace hlive =>
      .inl ⟨_, rfl, rfl, hplace, hlive⟩
  rcases hhead with ⟨⟨head, c₂, h₂⟩, ha, hb, hc₂, hl₂⟩ | ⟨e, e', ha, hb⟩
  · simp only [ha, hb, afterOf, current_cursor hl₂]
    -- it is a declaration if a name comes next with one of the follow tokens behind it
    cases hview : c₂.view with
    | stop => exact .inr (by simp [current_of_view_stop hview])
    | token t s c₃ h₃ =>
      have hcurrent := current_of_view hview
      cases t with
      | identifier name =>
        simp only [hcurrent, following_cursor hc₂ hview (by simp)]
        split
        · exact .inl ⟨_, rfl, rfl, hc₂, hl₂⟩
        · exact .inr ⟨rfl, rfl⟩
      | _ => exact .inr (by simp [hcurrent])
  · exact .inr (by simp only [ha, hb, and_self])

/-! ## Readers that are not tried -/

/-- Modifiers that are read are read in the longer sequence. -/
theorem modifiers_cursor_of_ok {c : Cursor} {r : From c (List Modifier)}
    (h : c.modifiers = .ok r) (hc : c.PlaceIn x.whole) (hl : x.floor ≤ c.remaining) :
    (x.cursor c).modifiers = .ok (x.fromOf id r) ∧ r.rest.PlaceIn x.whole ∧
      x.floor ≤ r.rest.remaining :=
  (modifiers_cursor hc hl).of_ok h

/-- A type that is read is read in the longer sequence. No unit ends with a type, so a token is left
behind it and nothing has to be asked of the start. -/
theorem typeRef_cursor_of_ok {c : Cursor} {r : After c TypeRef}
    (h : c.typeRef = .ok r) (hc : c.PlaceIn x.whole) :
    (x.cursor c).typeRef = .ok (x.afterOf id r) ∧ r.rest.PlaceIn x.whole ∧
      x.floor ≤ r.rest.remaining :=
  (typeRef_cursor hc (floor_le_of_behind r.behind)).of_ok h

/-- A token is accepted on both sides or on neither. -/
theorem accept?_cursor {c : Cursor} (hc : c.PlaceIn x.whole) (hl : x.floor ≤ c.remaining)
    (t : Token) :
    (∃ r, c.accept? t = some r ∧ (x.cursor c).accept? t = some (x.afterOf x.move r) ∧
      r.rest.PlaceIn x.whole ∧
      (t ≠ .rightBrace ∧ t ≠ .semicolon → x.floor ≤ r.rest.remaining)) ∨
    c.accept? t = none ∧ (x.cursor c).accept? t = none := by
  unfold accept?
  rw [view_cursor hl]
  cases hview : c.view with
  | stop => exact .inr ⟨rfl, rfl⟩
  | token t' s c₁ h₁ =>
    by_cases ht : t' = t
    · simp only [view, if_pos ht]
      exact .inl ⟨_, rfl, rfl, hc.of_view hview, fun h => floor_le_of_view hc hview (ht ▸ h)⟩
    · exact .inr ⟨if_neg ht, by simp only [view, if_neg ht]⟩

/-- A directive ends with a semicolon, behind which nothing may be left. -/
theorem directive_cursor {c : Cursor} {r : After c Unit}
    (h : c.directive = .ok r) (hc : c.PlaceIn x.whole) :
    (x.cursor c).directive = .ok (x.afterOf id r) ∧ r.rest.PlaceIn x.whole := by
  rw [directive] at h ⊢
  split at h
  · cases h
  · next t s c₁ h₁ hview =>
    rw [view_token hview]
    split at h
    · next ht =>
      obtain rfl := Except.ok.inj h
      exact ⟨if_pos ht, hc.of_view hview⟩
    · next ht =>
      obtain ⟨⟨_, c₂, h₂⟩, hrest, h⟩ := bind_eq_ok.mp h
      obtain rfl := Except.ok.inj h
      obtain ⟨heq, hplace⟩ := directive_cursor hrest (hc.of_view hview)
      simp only [if_neg ht, heq]
      exact ⟨rfl, hplace⟩
termination_by c.remaining

/-- Headers are passed one after the other. -/
theorem header_cursor {c : Cursor} {r : From c Unit}
    (h : c.header = .ok r) (hc : c.PlaceIn x.whole) :
    (x.cursor c).header = .ok (x.fromOf id r) ∧ r.rest.PlaceIn x.whole := by
  rw [header] at h ⊢
  split at h
  · cases h
  · next t s c₁ h₁ hview =>
    rw [view_token hview]
    split at h
    · next ht =>
      obtain rfl := Except.ok.inj h
      exact ⟨if_pos ht, hc⟩
    · next ht =>
      split at h
      · cases h
      · next ht' =>
        obtain ⟨⟨_, c₂, h₂⟩, hrest, h⟩ := bind_eq_ok.mp h
        obtain rfl := Except.ok.inj h
        obtain ⟨heq, hplace⟩ := header_cursor hrest (hc.of_view hview)
        simp only [if_neg ht, if_neg ht', heq]
        exact ⟨rfl, hplace⟩
termination_by c.remaining

/-- Dots make a type one of arrays on both sides. -/
theorem variadic_cursor {c : Cursor} (hc : c.PlaceIn x.whole) (hl : x.floor ≤ c.remaining)
    (type : TypeRef) : x.Same (c.variadic type) ((x.cursor c).variadic type) := by
  unfold variadic
  rcases accept?_cursor hc hl .ellipsis with ⟨r, ha, hb, hplace, hlive⟩ | ⟨ha, hb⟩
  · rw [ha, hb]
    exact ⟨rfl, hplace, hlive (by simp)⟩
  · rw [ha, hb]
    exact .stay hc hl type

/-- A parameter is read in the longer sequence, its spans moved. -/
theorem parameter_cursor {c : Cursor} {r : After c (List Outline)}
    (h : c.parameter = .ok r) (hc : c.PlaceIn x.whole) :
    (x.cursor c).parameter = .ok (x.afterOf (movedAll x.move) r) ∧ r.rest.PlaceIn x.whole ∧
      x.floor ≤ r.rest.remaining := by
  rw [parameter_eq] at h ⊢
  obtain ⟨⟨ms, c₁, h₁⟩, hms, h⟩ := bind_eq_ok.mp h
  obtain ⟨⟨type, c₂, h₂⟩, htype, h⟩ := bind_eq_ok.mp h
  obtain ⟨hms, hc₁, -⟩ :=
    modifiers_cursor_of_ok hms hc (floor_le_of_behind (h₂.trans_le h₁))
  obtain ⟨htype, hc₂, hl₂⟩ := typeRef_cursor_of_ok htype hc₁
  have hvariadic := variadic_cursor hc₂ hl₂ type
  simp only [hms, htype, bind_ok, fromOf, afterOf, id] at h hvariadic ⊢
  generalize (x.cursor c₂).variadic type = q at hvariadic ⊢
  obtain ⟨rfl, hc₃, hl₃⟩ := hvariadic
  simp only [fromOf]
  -- a receiver parameter `this` declares nothing
  rcases accept?_cursor hc₃ hl₃ (.keyword .this) with
    ⟨⟨_, c₄, h₄⟩, ha, hb, hc₄, hl₄⟩ | ⟨ha, hb⟩
  · simp only [ha] at h
    obtain rfl := Except.ok.inj h
    rw [hb]
    exact ⟨rfl, hc₄, hl₄ (by simp)⟩
  · simp only [ha] at h
    obtain ⟨⟨⟨name, span⟩, c₄, h₄⟩, hname, h⟩ := bind_eq_ok.mp h
    obtain rfl := Except.ok.inj h
    obtain ⟨hname, hc₄, hl₄⟩ := name_cursor hname hc₃
    have hdimensions := dimensions_cursor hc₄ hl₄ (c₂.variadic type).value
    rw [hb]
    simp only [hname, bind_ok, afterOf, id, Prod.map]
    exact ⟨by simp [hdimensions.eq, fromOf], hdimensions.place, hdimensions.live⟩

/-- Parameters are read in the longer sequence, by induction on what is left. -/
theorem parameterList_cursor {c : Cursor} {r : After c (List Outline)}
    (h : c.parameterList = .ok r) (hc : c.PlaceIn x.whole) :
    (x.cursor c).parameterList = .ok (x.afterOf (movedAll x.move) r) ∧ r.rest.PlaceIn x.whole ∧
      x.floor ≤ r.rest.remaining := by
  rw [parameterList] at h ⊢
  obtain ⟨⟨first, c₁, h₁⟩, hfirst, h⟩ := bind_eq_ok.mp h
  obtain ⟨hfirst, hc₁, hl₁⟩ := parameter_cursor hfirst hc
  simp only [hfirst, bind_ok, afterOf]
  dsimp only at h
  rcases accept?_cursor hc₁ hl₁ .comma with ⟨⟨_, c₂, h₂⟩, ha, hb, hc₂, -⟩ | ⟨ha, hb⟩
  · simp only [ha, hb] at h ⊢
    obtain ⟨⟨others, c₃, h₃⟩, hothers, h⟩ := bind_eq_ok.mp h
    obtain rfl := Except.ok.inj h
    have hbehind : c₂.Behind c := h₂.trans h₁
    obtain ⟨hothers, hc₃, hl₃⟩ := parameterList_cursor hothers hc₂
    simp only [afterOf, hothers, bind_ok]
    exact ⟨by simp, hc₃, hl₃⟩
  · simp only [ha, hb] at h ⊢
    obtain rfl := Except.ok.inj h
    exact ⟨rfl, hc₁, hl₁⟩
termination_by c.remaining

/-- Parameters in parentheses are read in the longer sequence. -/
theorem parameters_cursor {c : Cursor} {r : After c Outline}
    (h : c.parameters = .ok r) (hc : c.PlaceIn x.whole) :
    (x.cursor c).parameters = .ok (x.afterOf (moved x.move) r) ∧ r.rest.PlaceIn x.whole ∧
      x.floor ≤ r.rest.remaining := by
  rw [parameters] at h ⊢
  obtain ⟨⟨opening, c₁, h₁⟩, hopen, h⟩ := bind_eq_ok.mp h
  obtain ⟨⟨ps, c₂, h₂⟩, hps, h⟩ := ite_bind_eq_ok.mp h
  obtain ⟨⟨_, c₃, h₃⟩, hclose, h⟩ := bind_eq_ok.mp h
  obtain rfl := Except.ok.inj h
  obtain ⟨hopen, hc₁, hl₁⟩ := expect_cursor hopen hc
  have hl₁ := hl₁ (by simp)
  have hps : (if (x.cursor c₁).current = .rightParen then pure ((x.cursor c₁).stay [])
      else (x.cursor c₁).parameterList.map After.toFrom) =
        .ok (x.fromOf (movedAll x.move) ⟨ps, c₂, h₂⟩) ∧ c₂.PlaceIn x.whole := by
    -- an empty list is seen by the closing parenthesis
    rw [current_cursor hl₁]
    split at hps
    · next hparen =>
      rw [if_pos hparen]
      obtain ⟨rfl, rfl⟩ := From.mk.inj (Except.ok.inj hps)
      exact ⟨by simp [stay, fromOf], hc₁⟩
    · next hparen =>
      rw [if_neg hparen]
      obtain ⟨r, hr, heq⟩ := map_eq_ok.mp hps
      obtain ⟨hr, hplace, -⟩ := parameterList_cursor hr hc₁
      obtain ⟨rfl, rfl⟩ := From.mk.inj heq
      exact ⟨by rw [hr]; rfl, hplace⟩
  obtain ⟨hclose, hc₃, hl₃⟩ := expect_cursor hclose hps.2
  refine ⟨?_, hc₃, hl₃ (by simp)⟩
  simp only [hopen, afterOf, bind_ok, ite_bind_eq_ok]
  exact ⟨_, hps.1, by simp [fromOf, hclose, afterOf]⟩

/-- The stretch at a place where something is left is moved with it. -/
theorem span_cursor {c : Cursor} (h : 1 ≤ c.remaining) : (x.cursor c).span = x.move c.span := by
  obtain ⟨pending, stop⟩ := c
  cases pending with
  | nil => exact absurd h (by simp [remaining])
  | cons l rest => rfl

/-- Behind a current token that no unit ends with the same token follows on both sides. -/
theorem following_cursor_of_current {c : Cursor} {t : Token} (hc : c.PlaceIn x.whole)
    (hcurrent : c.current = t) (heof : t ≠ .eof) (ht : t ≠ .rightBrace ∧ t ≠ .semicolon) :
    (x.cursor c).following = c.following := by
  cases hview : c.view with
  | stop => exact absurd (hcurrent.symm.trans (current_of_view_stop hview)) heof
  | token t' s c₁ h₁ =>
    obtain rfl := (current_of_view hview).symm.trans hcurrent
    exact following_cursor hc hview ht

/-- An at sign is seen together with the word behind it. -/
theorem following_cursor_at {c : Cursor} (hc : c.PlaceIn x.whole) (hat : c.current = .at) :
    (x.cursor c).following = c.following :=
  following_cursor_of_current hc hat (by simp) (by simp)

/-- Whether a type starts is judged from at most two tokens, which are the same. -/
theorem startsType_cursor {c : Cursor} (hc : c.PlaceIn x.whole) (hl : x.floor ≤ c.remaining) :
    (x.cursor c).startsType = c.startsType := by
  unfold startsType
  rw [current_cursor hl]
  split
  case h_4 hat => rw [following_cursor_at hc hat]
  all_goals rfl

/-- The words in front of the name of a type; the name is a token of the sequence. -/
theorem headingStart_cursor {c : Cursor} (hc : c.PlaceIn x.whole)
    (hl : 1 ≤ c.headingStart.rest.remaining) :
    x.Same c.headingStart (x.cursor c).headingStart := by
  have hone : 1 ≤ c.remaining := Nat.le_trans hl c.headingStart.notBefore
  have hfloor : x.floor ≤ c.headingStart.rest.remaining := Nat.le_trans x.floor_le hl
  have hfirst : x.floor ≤ c.remaining := Nat.le_trans x.floor_le hone
  have hcurrent := current_cursor hfirst
  unfold headingStart at hl hfloor ⊢
  by_cases hword : c.current == .at && c.following == .keyword .interface
  · have hat : c.current = .at := eq_of_beq (Bool.and_eq_true_iff.mp hword).1
    simp only [hcurrent, following_cursor_at hc hat, hword, if_true] at hl hfloor ⊢
    have htwo : x.floor ≤ c.skip.remaining := Nat.le_trans hfloor c.skip.notBefore_skip
    refine ⟨?_, hc.skip.skip, hfloor⟩
    simp [fromOf, skip_cursor hfirst, skip_cursor htwo]
  · -- the test on two tokens gives the same in both, as the first is not the last of the row
    have hword' : ¬ ((x.cursor c).current == .at &&
        (x.cursor c).following == .keyword .interface) := by
      intro h
      have hat : c.current = .at := hcurrent ▸ eq_of_beq (Bool.and_eq_true_iff.mp h).1
      rw [hcurrent, following_cursor_at hc hat] at h
      exact hword h
    simp only [if_neg hword, if_neg hword'] at hfloor ⊢
    refine ⟨?_, hc.skip, hfloor⟩
    simp [fromOf, skip_cursor hfirst]

/-- The heading of a type that is read is read in the longer sequence, with the same kind. -/
theorem typeHeading_cursor {c : Cursor} {ms : List Modifier} {r : After c (NodeKind × Span)}
    (h : c.typeHeading ms = .ok r) (hc : c.PlaceIn x.whole) :
    (x.cursor c).typeHeading ms = .ok (x.afterOf (Prod.map id x.move) r) ∧
      r.rest.PlaceIn x.whole := by
  rw [typeHeading_eq] at h ⊢
  obtain ⟨⟨⟨name, nameSpan⟩, c₂, h₂⟩, hname, h⟩ := bind_eq_ok.mp h
  obtain ⟨⟨_, c₃, h₃⟩, hheader, h⟩ := bind_eq_ok.mp h
  have hname : c.headingStart.rest.name .type = _ := hname
  have hone : 1 ≤ c.headingStart.rest.remaining := Nat.lt_of_le_of_lt (Nat.zero_le _) h₂
  have hstart := headingStart_cursor hc hone
  generalize (x.cursor c).headingStart = q at hstart ⊢
  obtain ⟨rfl, hc₁, -⟩ := hstart
  obtain ⟨hname, hc₂, -⟩ := name_cursor hname hc₁
  obtain ⟨hheader, hc₃⟩ := header_cursor hheader hc₂
  have hlive : 1 ≤ c.remaining := Nat.le_trans hone c.headingStart.notBefore
  simp only [fromOf, hname, bind_ok, afterOf, hheader, span_cursor hlive,
    current_cursor (Nat.le_trans x.floor_le hlive)]
  dsimp only at h
  split at h
  -- no word of a type declaration stands there
  case h_5 => cases h
  all_goals
    obtain rfl := Except.ok.inj h
    refine ⟨?_, hc₃⟩
    simp [x.move_to]

/-- What stands between the parameters of a method and its end is read in the longer sequence. -/
theorem methodClauses_cursor {c : Cursor} {r : From c Unit}
    (h : c.methodClauses = .ok r) (hc : c.PlaceIn x.whole) :
    (x.cursor c).methodClauses = .ok (x.fromOf id r) ∧ r.rest.PlaceIn x.whole := by
  rw [methodClauses] at h ⊢
  split at h
  · cases h
  · next t s c₁ h₁ hview =>
    rw [view_token hview]
    split at h
    · next ht =>
      obtain rfl := Except.ok.inj h
      exact ⟨if_pos ht, hc⟩
    · next ht =>
      obtain ⟨⟨_, c₂, h₂⟩, hrest, h⟩ := bind_eq_ok.mp h
      obtain rfl := Except.ok.inj h
      obtain ⟨heq, hplace⟩ := methodClauses_cursor hrest (hc.of_view hview)
      simp only [if_neg ht, heq]
      exact ⟨rfl, hplace⟩
termination_by c.remaining

/-- Further types of a handler are passed in the longer sequence. -/
theorem catchAlternatives_cursor {c : Cursor} {r : From c Unit} (h : c.catchAlternatives = .ok r)
    (hc : c.PlaceIn x.whole) (hl : x.floor ≤ r.rest.remaining) :
    (x.cursor c).catchAlternatives = .ok (x.fromOf id r) ∧ r.rest.PlaceIn x.whole := by
  rw [catchAlternatives] at h ⊢
  rcases accept?_cursor hc (Nat.le_trans hl r.notBefore) (.operator "|") with
    ⟨⟨_, c₁, h₁⟩, ha, hb, hc₁, -⟩ | ⟨ha, hb⟩
  · rw [ha] at h
    obtain ⟨⟨type, c₂, h₂⟩, htype, h⟩ := bind_eq_ok.mp h
    obtain ⟨⟨_, c₃, h₃⟩, hrest, h⟩ := bind_eq_ok.mp h
    obtain rfl := Except.ok.inj h
    have hbehind : c₂.Behind c := h₂.trans h₁
    obtain ⟨htype, hc₂, -⟩ := typeRef_cursor_of_ok htype hc₁
    obtain ⟨hrest, hplace⟩ := catchAlternatives_cursor hrest hc₂ hl
    rw [hb]
    simp only [afterOf, htype, bind_ok, hrest]
    exact ⟨rfl, hplace⟩
  · rw [ha] at h
    obtain rfl := Except.ok.inj h
    rw [hb]
    exact ⟨rfl, hc⟩
termination_by c.remaining

/-- The parameter of a handler is read in the longer sequence. -/
theorem catchParameter_cursor {c : Cursor} {r : After c Outline}
    (h : c.catchParameter = .ok r) (hc : c.PlaceIn x.whole) :
    (x.cursor c).catchParameter = .ok (x.afterOf (moved x.move) r) ∧ r.rest.PlaceIn x.whole := by
  rw [catchParameter] at h ⊢
  obtain ⟨⟨_, c₁, h₁⟩, hopen, h⟩ := bind_eq_ok.mp h
  obtain ⟨⟨ms, c₂, h₂⟩, hms, h⟩ := bind_eq_ok.mp h
  obtain ⟨⟨type, c₃, h₃⟩, htype, h⟩ := bind_eq_ok.mp h
  obtain ⟨⟨_, c₄, h₄⟩, halternatives, h⟩ := bind_eq_ok.mp h
  obtain ⟨⟨⟨name, span⟩, c₅, h₅⟩, hname, h⟩ := bind_eq_ok.mp h
  obtain ⟨⟨_, c₆, h₆⟩, hclose, h⟩ := bind_eq_ok.mp h
  obtain rfl := Except.ok.inj h
  obtain ⟨hopen, hc₁, -⟩ := expect_cursor hopen hc
  obtain ⟨hms, hc₂, -⟩ :=
    modifiers_cursor_of_ok hms hc₁ (floor_le_of_behind (h₃.trans_le h₂))
  obtain ⟨htype, hc₃, -⟩ := typeRef_cursor_of_ok htype hc₂
  -- the name is still to come, so no alternative behind the sequence is seen
  obtain ⟨halternatives, hc₄⟩ :=
    catchAlternatives_cursor halternatives hc₃ (floor_le_of_behind h₅)
  obtain ⟨hname, hc₅, -⟩ := name_cursor hname hc₄
  obtain ⟨hclose, hc₆, -⟩ := expect_cursor hclose hc₅
  refine ⟨?_, hc₆⟩
  simp [afterOf, fromOf, hopen, hms, htype, halternatives, hname, hclose]

/-- Where a primitive type with a name behind it is told from an expression, it is told so in the
longer sequence. -/
theorem primitiveStart_cursor {c : Cursor} (h : c.primitiveStart = .ok ())
    (hc : c.PlaceIn x.whole) (hl : x.floor ≤ c.remaining) :
    (x.cursor c).primitiveStart = .ok () := by
  unfold primitiveStart at h ⊢
  rw [current_cursor hl]
  split at h
  · next name hname =>
    split at h
    · next hprimitive =>
      rw [if_pos hprimitive]
      obtain ⟨⟨_, c₁, h₁⟩, htype, h⟩ := bind_eq_ok.mp h
      obtain ⟨htype, hc₁, hl₁⟩ := typeRef_cursor_of_ok htype hc
      dsimp only at h
      split at h
      · next hdot => simp [htype, afterOf, current_cursor hl₁, hdot]
      · obtain ⟨_, -, h⟩ := bind_eq_ok.mp h
        cases h
    · next hprimitive => exact if_neg hprimitive
  · rfl

end Extension

end Cursor

end FieldShadow
