import FieldShadow.Proofs.Grammar.TokenOrder

/-!
# Readings that stay in the token sequence

Whatever the tokens are, every reader of the grammar stays in their sequence: it ends at a place of
it, or a demand that is not met at such a place ends the reading (`Cursor.StaysIn`). So no reader
goes past the end, not even one that goes back and tries again, and every error is about a token of
the sequence.

## Shape of the argument

`StaysIn whole rest a` has two cases for the outcome `a` of a reading: it ends, and then at a place
in `whole`, or it fails at the first token behind such a place. Readings are composed from the left,
each from where the one before it has ended (`StaysIn.bind`), so the proof about a reader follows
its definition line by line.

A place in the sequence stays one when a token is taken from it (`PlaceIn.of_view`), also at the
end, where nothing is taken. That is why no reader needs to know how long the sequence is. The
readers that nest are proved together, for fewer than `n` tokens (`staysBelow`).
-/

namespace FieldShadow

namespace Cursor

variable {ρ σ α : Type} {c whole : Cursor}

/-! ## Readings that stay in a sequence -/

/-- A reading ends at a place of a sequence, or an unmet demand at such a place ends it. -/
inductive StaysIn (whole : Cursor) (rest : ρ → Cursor) : Except SyntaxError ρ → Prop
  | ends {r : ρ} (place : (rest r).PlaceIn whole) : StaysIn whole rest (.ok r)
  | fails {d : Cursor} (place : d.PlaceIn whole) (demand : Demand) :
      StaysIn whole rest (.error (d.fault demand))

section

variable {rest : ρ → Cursor} {rest' : σ → Cursor}

/-- Readers one behind the other stay in the sequence if the first does and, from the place that it
led to, the second does. So a composed reader is followed by its `do` block, step by step. -/
theorem StaysIn.bind {a : Except SyntaxError ρ} {f : ρ → Except SyntaxError σ}
    (h : StaysIn whole rest a) (hok : ∀ r, (rest r).PlaceIn whole → StaysIn whole rest' (f r)) :
    StaysIn whole rest' (a >>= f) := by
  cases h with
  | ends place => exact hok _ place
  | fails place demand => exact .fails place demand

/-- The steps after a reader that consumes a token, for each of its results. -/
theorem StaysIn.bind_after {a : Except SyntaxError (After c α)}
    {f : After c α → Except SyntaxError σ} (h : StaysIn whole After.rest a)
    (hok : ∀ v c₁ h₁, c₁.PlaceIn whole → StaysIn whole rest' (f ⟨v, c₁, h₁⟩)) :
    StaysIn whole rest' (a >>= f) :=
  h.bind fun ⟨v, c₁, h₁⟩ => hok v c₁ h₁

/-- The steps after a reader that need not consume a token. -/
theorem StaysIn.bind_from {a : Except SyntaxError (From c α)}
    {f : From c α → Except SyntaxError σ} (h : StaysIn whole From.rest a)
    (hok : ∀ v c₁ h₁, c₁.PlaceIn whole → StaysIn whole rest' (f ⟨v, c₁, h₁⟩)) :
    StaysIn whole rest' (a >>= f) :=
  h.bind fun ⟨v, c₁, h₁⟩ => hok v c₁ h₁

/-- That a token was consumed can be forgotten. -/
theorem StaysIn.toFrom {a : Except SyntaxError (After c α)} (h : StaysIn whole After.rest a) :
    StaysIn whole From.rest (a.map After.toFrom) := by
  cases h with
  | ends place => exact .ends place
  | fails place demand => exact .fails place demand

end

/-- A row of things that each stay in the sequence stays in it: it ends in front of its brace, or
fails where the brace is missing. -/
theorem staysIn_row {n : Nat} {enclosure : Enclosure}
    {one : (c : Cursor) → Except SyntaxError (After c (List Outline))}
    {row : (c : Cursor) → Except SyntaxError (From c (List Outline))}
    (hrow : ReadsRow enclosure one row)
    (hone : ∀ {c : Cursor}, c.remaining < n → c.PlaceIn whole → StaysIn whole After.rest (one c))
    {c : Cursor} (hn : c.remaining < n) (hc : c.PlaceIn whole) :
    StaysIn whole From.rest (row c) := by
  by_cases heof : c.current = .eof
  · rw [hrow.eof c heof]
    exact .fails hc _
  · by_cases hbrace : c.current = .rightBrace
    · rw [hrow.brace c hbrace]
      exact .ends hc
    · rw [hrow.more c heof hbrace]
      refine (hone hn hc).bind_after fun _ c₁ h₁ hc₁ => ?_
      exact (staysIn_row hrow hone (Nat.lt_trans h₁ hn) hc₁).bind_from fun _ _ _ hc₂ => .ends hc₂
termination_by c.remaining

/-! ## Readers that never fail -/

/-- Behind a token of the sequence is a place of the sequence. -/
theorem PlaceIn.of_accept? {t : Token} {r : After c Span} (hc : c.PlaceIn whole)
    (h : c.accept? t = some r) : r.rest.PlaceIn whole := by
  unfold accept? at h
  split at h
  · cases h
  · next hview =>
    split at h
    · obtain rfl := Option.some.inj h
      exact hc.of_view hview
    · cases h

/-- The parts of a qualified name are tokens of the sequence. -/
theorem PlaceIn.qualifiers (hc : c.PlaceIn whole) : c.qualifiers.rest.PlaceIn whole :=
  (Extension.qualifiers_cursor (x := whole.alone) hc (Nat.zero_le _)).place

/-- The brackets behind a type are tokens of the sequence. -/
theorem PlaceIn.dimensions (hc : c.PlaceIn whole) (type : TypeRef) :
    (c.dimensions type).rest.PlaceIn whole :=
  (Extension.dimensions_cursor (x := whole.alone) hc (Nat.zero_le _) type).place

/-- An ellipsis that is passed is a token of the sequence. -/
theorem PlaceIn.variadic (hc : c.PlaceIn whole) (type : TypeRef) :
    (c.variadic type).rest.PlaceIn whole :=
  (Extension.variadic_cursor (x := whole.alone) hc (Nat.zero_le _) type).place

/-- The words that a type begins with are passed one token at a time, and no further than the end.
-/
theorem PlaceIn.headingStart (hc : c.PlaceIn whole) : c.headingStart.rest.PlaceIn whole := by
  unfold Cursor.headingStart
  split
  · exact hc.skip.skip
  · exact hc.skip

/-- The heading of a variable ends at a place of the sequence. If there is none the cursor was never
moved, so nothing is to be shown for it. -/
theorem PlaceIn.of_declarationHead? {follow : List Token}
    {r : After c (List Modifier × TypeRef)} (hc : c.PlaceIn whole)
    (h : c.declarationHead? follow = some r) : r.rest.PlaceIn whole := by
  rcases Extension.declarationHead?_cursor (x := whole.alone) hc (Nat.zero_le _) follow with
    ⟨r', hr', -, hplace, -⟩ | ⟨hnone, -⟩
  · obtain rfl := Option.some.inj (h.symm.trans hr')
    exact hplace
  · cases h.symm.trans hnone

/-! ## Single tokens and what is passed over -/

/-- A mark is read, or it is missed at the cursor itself. -/
theorem staysIn_expect (hc : c.PlaceIn whole) (m : Mark) :
    StaysIn whole After.rest (c.expect m) := by
  unfold expect
  split
  · next haccept => exact .ends (hc.of_accept? haccept)
  · exact .fails hc _

/-- An identifier is read, or it is missed at the cursor itself. -/
theorem staysIn_name (hc : c.PlaceIn whole) (role : NameRole) :
    StaysIn whole After.rest (c.name role) := by
  unfold name
  split
  · next hview => exact .ends (hc.of_view hview)
  · exact .fails hc _

/-- A directive ends behind its semicolon, or at the end of the text. -/
theorem staysIn_directive {c : Cursor} (hc : c.PlaceIn whole) :
    StaysIn whole After.rest c.directive := by
  rw [directive]
  split
  · exact .fails hc _
  · next t _ c₁ h₁ hview =>
    have hc₁ := hc.of_view hview
    split
    · exact .ends hc₁
    · exact (staysIn_directive hc₁).bind_after fun _ _ _ hc₂ => .ends hc₂
termination_by c.remaining

/-- A bracketed group ends behind the bracket that closes it, or at the end of the text, whatever
kinds of brackets are in it. -/
theorem staysIn_bracketed {c : Cursor} (hc : c.PlaceIn whole) (depth : Nat) :
    StaysIn whole After.rest (c.bracketed depth) := by
  rw [bracketed]
  split
  · exact .fails hc _
  · next t _ c₁ h₁ hview =>
    have hc₁ := hc.of_view hview
    split
    · exact .ends hc₁
    · exact (staysIn_bracketed hc₁ _).bind_after fun _ _ _ hc₂ => .ends hc₂
termination_by c.remaining

/-- Type arguments end behind their closing angle bracket, or at the first token that cannot stand
in them. -/
theorem staysIn_typeArguments {c : Cursor} (hc : c.PlaceIn whole) (depth : Nat) :
    StaysIn whole After.rest (c.typeArguments depth) := by
  rw [typeArguments]
  split
  · exact .fails hc _
  · next t _ c₁ h₁ hview =>
    have hc₁ := hc.of_view hview
    split
    · exact .ends hc₁
    · split
      · exact (staysIn_typeArguments hc₁ _).bind_after fun _ _ _ hc₂ => .ends hc₂
      · exact .fails hc _
termination_by c.remaining

/-- Where no type arguments stand the cursor is not moved. -/
theorem staysIn_typeArguments? (hc : c.PlaceIn whole) :
    StaysIn whole From.rest c.typeArguments? := by
  unfold typeArguments?
  split
  · exact (staysIn_typeArguments hc 0).toFrom
  · exact .ends hc

/-- An annotation ends behind its name or its arguments. -/
theorem staysIn_annotationUse (hc : c.PlaceIn whole) :
    StaysIn whole After.rest c.annotationUse := by
  rw [annotationUse]
  refine (staysIn_expect hc _).bind_after fun _ c₁ h₁ hc₁ => ?_
  refine (staysIn_name hc₁ _).bind_after fun _ c₂ h₂ hc₂ => ?_
  have hc₃ := hc₂.qualifiers
  dsimp only
  generalize c₂.qualifiers = qualifiers at hc₃
  obtain ⟨_, c₃, h₃⟩ := qualifiers
  dsimp only
  split
  · exact (staysIn_bracketed hc₃ 0).bind_after fun _ _ _ hc₄ => .ends hc₄
  · exact .ends hc₃

/-- Annotations end where no other begins. -/
theorem staysIn_annotationUses {c : Cursor} (hc : c.PlaceIn whole) :
    StaysIn whole From.rest c.annotationUses := by
  rw [annotationUses]
  split
  · refine (staysIn_annotationUse hc).bind_after fun _ c₁ h₁ hc₁ => ?_
    exact (staysIn_annotationUses hc₁).bind_from fun _ _ _ hc₂ => .ends hc₂
  · exact .ends hc
termination_by c.remaining

/-- A header ends in front of a brace, or fails at a semicolon or at the end of the text. It never
looks behind either. -/
theorem staysIn_header {c : Cursor} (hc : c.PlaceIn whole) :
    StaysIn whole From.rest c.header := by
  rw [header]
  split
  · exact .fails hc _
  · next t _ c₁ h₁ hview =>
    split
    · exact .ends hc
    · split
      · exact .fails hc _
      · exact (staysIn_header (hc.of_view hview)).bind_from fun _ _ _ hc₂ => .ends hc₂
termination_by c.remaining

/-! ## Headings -/

/-- Modifiers end at the first token that is none, and only an annotation between them can fail. -/
theorem staysIn_modifiers {c : Cursor} (hc : c.PlaceIn whole) :
    StaysIn whole From.rest c.modifiers := by
  rw [modifiers]
  split
  · next c₁ h₁ hview =>
    split
    · exact (staysIn_modifiers (hc.of_view hview)).bind_from fun _ _ _ hc₂ => .ends hc₂
    · exact .ends hc
  · split
    · exact .ends hc
    · refine (staysIn_annotationUse hc).bind_after fun _ c₁ h₁ hc₁ => ?_
      exact (staysIn_modifiers hc₁).bind_from fun _ _ _ hc₂ => .ends hc₂
  · exact .ends hc
termination_by c.remaining

/-- A qualified name ends at the first token that is neither a dot in front of an identifier nor
type arguments. -/
theorem staysIn_qualifiedName {c : Cursor} (hc : c.PlaceIn whole) (name : String) :
    StaysIn whole From.rest (c.qualifiedName name) := by
  rw [qualifiedName]
  split
  · next dotted h hview =>
    split
    · next c₁ h₁ hview₁ =>
      have hc₁ := (hc.of_view hview).of_view hview₁
      refine (staysIn_typeArguments? hc₁).bind_from fun _ c₂ h₂ hc₂ => ?_
      exact (staysIn_qualifiedName hc₂ _).bind_from fun _ _ _ hc₃ => .ends hc₃
    · exact .ends hc
  · exact .ends hc
termination_by c.remaining

/-- A type is missed at the place behind its annotations, not in front of them. -/
theorem staysIn_typeRef (hc : c.PlaceIn whole) : StaysIn whole After.rest c.typeRef := by
  rw [typeRef]
  refine (staysIn_annotationUses hc).bind_from fun _ c₁ h₁ hc₁ => ?_
  dsimp only
  split
  · next c₂ h₂ hview => exact .ends ((hc₁.of_view hview).dimensions .void)
  · next name _ c₂ h₂ hview =>
    refine (staysIn_typeArguments? (hc₁.of_view hview)).bind_from fun _ c₃ h₃ hc₃ => ?_
    refine (staysIn_qualifiedName hc₃ name).bind_from fun full c₄ h₄ hc₄ => ?_
    exact .ends (hc₄.dimensions (.ofName full))
  · exact .fails hc₁ _

/-- A parameter ends behind its name and dimensions, a receiver behind `this`. -/
theorem staysIn_parameter (hc : c.PlaceIn whole) : StaysIn whole After.rest c.parameter := by
  rw [parameter_eq]
  refine (staysIn_modifiers hc).bind_from fun _ c₁ h₁ hc₁ => ?_
  refine (staysIn_typeRef hc₁).bind_after fun type c₂ h₂ hc₂ => ?_
  have hc₃ := hc₂.variadic type
  dsimp only
  generalize c₂.variadic type = variadic at hc₃
  obtain ⟨type', c₃, h₃⟩ := variadic
  dsimp only
  split
  · next hthis => exact .ends (hc₃.of_accept? hthis)
  · refine (staysIn_name hc₃ _).bind_after fun _ c₄ h₄ hc₄ => ?_
    exact .ends (hc₄.dimensions type')

/-- A list of parameters ends where no comma follows. -/
theorem staysIn_parameterList {c : Cursor} (hc : c.PlaceIn whole) :
    StaysIn whole After.rest c.parameterList := by
  rw [parameterList]
  refine (staysIn_parameter hc).bind_after fun _ c₁ h₁ hc₁ => ?_
  dsimp only
  split
  · next c₂ h₂ hcomma =>
    exact (staysIn_parameterList (hc₁.of_accept? hcomma)).bind_after fun _ _ _ hc₃ => .ends hc₃
  · exact .ends hc₁
termination_by c.remaining

/-- A list of parameters ends behind its parenthesis. -/
theorem staysIn_parameters (hc : c.PlaceIn whole) : StaysIn whole After.rest c.parameters := by
  rw [parameters]
  refine (staysIn_expect hc _).bind_after fun _ c₁ h₁ hc₁ => ?_
  dsimp only
  rw [← ite_bind]
  refine StaysIn.bind_from ?_ fun _ c₂ h₂ hc₂ => ?_
  · split
    · exact .ends hc₁
    · exact (staysIn_parameterList hc₁).toFrom
  · exact (staysIn_expect hc₂ _).bind_after fun _ _ _ hc₃ => .ends hc₃

/-- A type that begins with none of the words is refused at the place where it begins, which the
reader has long passed by then. -/
theorem staysIn_typeHeading (hc : c.PlaceIn whole) (ms : List Modifier) :
    StaysIn whole After.rest (c.typeHeading ms) := by
  rw [typeHeading_eq]
  refine (staysIn_name hc.headingStart _).bind_after fun _ c₂ h₂ hc₂ => ?_
  refine (staysIn_header hc₂).bind_from fun _ c₃ h₃ hc₃ => ?_
  dsimp only
  split
  case h_5 => exact .fails hc _
  all_goals exact .ends hc₃

/-- What begins with a primitive type is refused behind the type, or read from the cursor. -/
theorem staysIn_primitiveStart (hc : c.PlaceIn whole) :
    StaysIn whole (fun _ => c) c.primitiveStart := by
  unfold primitiveStart
  split
  · split
    · refine (staysIn_typeRef hc).bind_after fun _ c₁ h₁ hc₁ => ?_
      dsimp only
      split
      · exact .ends hc
      · exact (staysIn_name hc₁ _).bind_after fun _ c₂ h₂ hc₂ => .fails hc₂ _
    · exact .ends hc
  · exact .ends hc

/-- The clauses of a method end in front of its body, its semicolon or its default value. -/
theorem staysIn_methodClauses {c : Cursor} (hc : c.PlaceIn whole) :
    StaysIn whole From.rest c.methodClauses := by
  rw [methodClauses]
  split
  · exact .fails hc _
  · next t _ c₁ h₁ hview =>
    split
    · exact .ends hc
    · exact (staysIn_methodClauses (hc.of_view hview)).bind_from fun _ _ _ hc₂ => .ends hc₂
termination_by c.remaining

/-- The types of a handler end where no bar follows. -/
theorem staysIn_catchAlternatives {c : Cursor} (hc : c.PlaceIn whole) :
    StaysIn whole From.rest c.catchAlternatives := by
  rw [catchAlternatives]
  split
  · exact .ends hc
  · next c₁ h₁ hbar =>
    have hc₁ : c₁.PlaceIn whole := hc.of_accept? hbar
    refine (staysIn_typeRef hc₁).bind_after fun _ c₂ h₂ hc₂ => ?_
    exact (staysIn_catchAlternatives hc₂).bind_from fun _ _ _ hc₃ => .ends hc₃
termination_by c.remaining

/-- The parameter of a handler ends behind its parenthesis. -/
theorem staysIn_catchParameter (hc : c.PlaceIn whole) :
    StaysIn whole After.rest c.catchParameter := by
  rw [catchParameter]
  refine (staysIn_expect hc _).bind_after fun _ c₁ h₁ hc₁ => ?_
  refine (staysIn_modifiers hc₁).bind_from fun _ c₂ h₂ hc₂ => ?_
  refine (staysIn_typeRef hc₂).bind_after fun _ c₃ h₃ hc₃ => ?_
  refine (staysIn_catchAlternatives hc₃).bind_from fun _ c₄ h₄ hc₄ => ?_
  refine (staysIn_name hc₄ _).bind_after fun _ c₅ h₅ hc₅ => ?_
  exact (staysIn_expect hc₅ _).bind_after fun _ _ _ hc₆ => .ends hc₆

/-! ## Bodies, blocks and expressions -/

/-- At cursors with fewer than `n` tokens left the readers that nest stay in the sequence. -/
structure StaysBelow (whole : Cursor) (n : Nat) : Prop where
  typeBody : ∀ {c : Cursor}, c.remaining < n → c.PlaceIn whole →
    StaysIn whole After.rest c.typeBody
  typeDeclaration : ∀ {c : Cursor}, c.remaining < n → c.PlaceIn whole → ∀ ms : List Modifier,
    StaysIn whole After.rest (c.typeDeclaration ms)
  statement : ∀ {c : Cursor}, c.remaining < n → c.PlaceIn whole →
    StaysIn whole After.rest c.statement
  expression : ∀ {c : Cursor}, c.remaining < n → c.PlaceIn whole →
    ∀ (terminators : List Token) (depth : Nat),
      StaysIn whole From.rest (c.expression terminators depth)

/-- What stands in braces ends behind the closing one, if what is read between them stays in the
sequence. -/
theorem staysIn_braces {opening closing : Mark} {kind : NodeKind}
    {inner : (c : Cursor) → Except SyntaxError (From c (List Outline))} (hc : c.PlaceIn whole)
    (hinner : ∀ {c₁ : Cursor}, c₁.Behind c → c₁.PlaceIn whole →
      StaysIn whole From.rest (inner c₁)) :
    StaysIn whole After.rest (braces opening closing kind inner c) := by
  refine (staysIn_expect hc _).bind_after fun _ c₁ h₁ hc₁ => ?_
  refine (hinner h₁ hc₁).bind_from fun _ c₂ h₂ hc₂ => ?_
  exact (staysIn_expect hc₂ _).bind_after fun _ _ _ hc₃ => .ends hc₃

section

variable {n : Nat} (ih : StaysBelow whole n)
include ih

/-- Arguments end behind their parenthesis. -/
theorem staysIn_arguments (hn : c.remaining ≤ n) (hc : c.PlaceIn whole) :
    StaysIn whole After.rest c.arguments := by
  rw [arguments]
  refine (staysIn_expect hc _).bind_after fun _ c₁ h₁ hc₁ => ?_
  refine (ih.expression (by omega) hc₁ _ _).bind_from fun _ c₂ h₂ hc₂ => ?_
  exact (staysIn_expect hc₂ _).bind_after fun _ _ _ hc₃ => .ends hc₃

/-- The creation of an object ends behind its type, its arguments or its body. -/
theorem staysIn_creation (hn : c.remaining ≤ n) (hc : c.PlaceIn whole) :
    StaysIn whole After.rest c.creation := by
  rw [creation]
  refine (staysIn_expect hc _).bind_after fun _ c₁ h₁ hc₁ => ?_
  refine (staysIn_typeArguments? hc₁).bind_from fun _ c₂ h₂ hc₂ => ?_
  refine (staysIn_typeRef hc₂).bind_after fun _ c₃ h₃ hc₃ => ?_
  dsimp only
  split
  · refine (staysIn_arguments ih (by omega) hc₃).bind_after fun _ c₄ h₄ hc₄ => ?_
    dsimp only
    split
    · exact (ih.typeBody (by omega) hc₄).bind_after fun _ _ _ hc₅ => .ends hc₅
    · exact .ends hc₄
  · exact .ends hc₃

/-- An expression ends in front of what ends it, or at the end of the text. A bracket that closes
nothing ends it too, so no number of open brackets is needed here. -/
theorem staysIn_expression (hn : c.remaining ≤ n) (hc : c.PlaceIn whole)
    (terminators : List Token) (depth : Nat) :
    StaysIn whole From.rest (c.expression terminators depth) := by
  rw [expression]
  split
  · exact .fails hc _
  · next t _ c₁ h₁ hview =>
    split
    · exact .ends hc
    · split
      · refine (staysIn_creation ih hn hc).bind_after fun _ c₂ h₂ hc₂ => ?_
        exact (ih.expression (by omega) hc₂ _ _).bind_from fun _ _ _ hc₃ => .ends hc₃
      · have hc₁ := hc.of_view hview
        exact (ih.expression (by omega) hc₁ _ _).bind_from fun _ _ _ hc₂ => .ends hc₂

/-- Without an equals sign the cursor is not moved. -/
theorem staysIn_initializer (hn : c.remaining ≤ n) (hc : c.PlaceIn whole) :
    StaysIn whole From.rest c.initializer := by
  unfold initializer
  split
  · next c₁ h₁ hequal =>
    have hc₁ : c₁.PlaceIn whole := hc.of_accept? hequal
    exact (ih.expression (by omega) hc₁ _ _).bind_from fun _ _ _ hc₂ => .ends hc₂
  · exact .ends hc

/-- Declarators end where no comma follows. Each begins behind a token more, which carries the
recursion. -/
theorem staysIn_declarators {c : Cursor} (hn : c.remaining ≤ n) (hc : c.PlaceIn whole)
    (ms : List Modifier) (type : TypeRef) (name : String) (span : Span) :
    StaysIn whole From.rest (c.declarators ms type name span) := by
  rw [declarators_eq]
  have hc₁ := hc.dimensions type
  generalize c.dimensions type = dimensions at hc₁
  obtain ⟨type', c₁, h₁⟩ := dimensions
  refine (staysIn_initializer ih (Nat.le_trans h₁ hn) hc₁).bind_from fun _ c₂ h₂ hc₂ => ?_
  dsimp only
  split
  · next c₃ h₃ hcomma =>
    have hc₃ : c₃.PlaceIn whole := hc₂.of_accept? hcomma
    refine (staysIn_name hc₃ _).bind_after fun _ c₄ h₄ hc₄ => ?_
    have hn₄ : c₄.remaining ≤ n := by omega
    exact (staysIn_declarators hn₄ hc₄ _ _ _ _).bind_from fun _ _ _ hc₅ => .ends hc₅
  · exact .ends hc₂
termination_by c.remaining

/-- Statements end in front of a brace, or at the end of the text. -/
theorem staysIn_statements {c : Cursor} (hn : c.remaining < n) (hc : c.PlaceIn whole) :
    StaysIn whole From.rest c.statements :=
  staysIn_row readsRow_statements ih.statement hn hc

/-- A block ends behind its brace. -/
theorem staysIn_block (hn : c.remaining ≤ n) (hc : c.PlaceIn whole) :
    StaysIn whole After.rest c.block := by
  rw [block_eq]
  exact staysIn_braces hc fun hbehind hc₁ => staysIn_statements ih (by omega) hc₁

/-- A local declaration and an expression end behind a semicolon. -/
theorem staysIn_localOrExpression (hn : c.remaining ≤ n) (hc : c.PlaceIn whole) :
    StaysIn whole After.rest c.localOrExpression := by
  rw [localOrExpression]
  split
  · next c₁ h₁ hhead =>
    have hc₁ : c₁.PlaceIn whole := hc.of_declarationHead? hhead
    refine (staysIn_name hc₁ _).bind_after fun _ c₂ h₂ hc₂ => ?_
    have hn₂ : c₂.remaining ≤ n := by omega
    refine (staysIn_declarators ih hn₂ hc₂ _ _ _ _).bind_from fun _ c₃ h₃ hc₃ => ?_
    exact (staysIn_expect hc₃ _).bind_after fun _ _ _ hc₄ => .ends hc₄
  · refine (staysIn_primitiveStart hc).bind fun _ hc => ?_
    refine (staysIn_expression ih hn hc _ _).bind_from fun _ c₁ h₁ hc₁ => ?_
    exact (staysIn_expect hc₁ _).bind_after fun _ _ _ hc₂ => .ends hc₂

/-- A label ends behind its colon; what is no label ends where a statement does. -/
theorem staysIn_caseGroup {c : Cursor} (hn : c.remaining < n) (hc : c.PlaceIn whole) :
    StaysIn whole After.rest c.caseGroup := by
  rw [caseGroup]
  split
  · next c₁ h₁ hview =>
    have hc₁ := hc.of_view hview
    refine (staysIn_expression ih (by omega) hc₁ _ _).bind_from fun _ c₂ h₂ hc₂ => ?_
    exact (staysIn_expect hc₂ _).bind_after fun _ _ _ hc₃ => .ends hc₃
  · next c₁ h₁ hview =>
    split
    · -- `default` begins a label only with a colon behind it
      next c₂ h₂ hcolon => exact .ends ((hc.of_view hview).of_accept? hcolon)
    · exact ih.statement hn hc
  · exact ih.statement hn hc

/-- The groups of a `switch` end in front of a brace, or at the end of the text. -/
theorem staysIn_caseGroups {c : Cursor} (hn : c.remaining < n) (hc : c.PlaceIn whole) :
    StaysIn whole From.rest c.caseGroups :=
  staysIn_row readsRow_caseGroups (staysIn_caseGroup ih) hn hc

/-- The body of a `switch` ends behind its brace. -/
theorem staysIn_switchBody (hn : c.remaining ≤ n) (hc : c.PlaceIn whole) :
    StaysIn whole After.rest c.switchBody := by
  rw [switchBody_eq]
  exact staysIn_braces hc fun hbehind hc₁ => staysIn_caseGroups ih (by omega) hc₁

/-- An initializer ends in front of a semicolon, whether it declares variables or not. -/
theorem staysIn_forInitializer (hn : c.remaining ≤ n) (hc : c.PlaceIn whole) (opening : Span) :
    StaysIn whole From.rest (c.forInitializer opening) := by
  rw [forInitializer]
  split
  · next c₁ h₁ hhead =>
    have hc₁ : c₁.PlaceIn whole := hc.of_declarationHead? hhead
    refine (staysIn_name hc₁ _).bind_after fun _ c₂ h₂ hc₂ => ?_
    have hn₂ : c₂.remaining ≤ n := by omega
    exact (staysIn_declarators ih hn₂ hc₂ _ _ _ _).bind_from fun _ _ _ hc₃ => .ends hc₃
  · exact staysIn_expression ih hn hc _ _

/-- The clauses of a `for` statement end in front of its parenthesis. -/
theorem staysIn_forClauses (hn : c.remaining ≤ n) (hc : c.PlaceIn whole) (opening : Span) :
    StaysIn whole After.rest (c.forClauses opening) := by
  rw [forClauses]
  split
  · next c₁ h₁ hhead =>
    have hc₁ : c₁.PlaceIn whole := hc.of_declarationHead? hhead
    refine (staysIn_name hc₁ _).bind_after fun _ c₂ h₂ hc₂ => ?_
    refine (staysIn_expect hc₂ _).bind_after fun _ c₃ h₃ hc₃ => ?_
    have hn₃ : c₃.remaining ≤ n := by omega
    exact (staysIn_expression ih hn₃ hc₃ _ _).bind_from fun _ _ _ hc₄ => .ends hc₄
  · refine (staysIn_forInitializer ih hn hc opening).bind_from fun _ c₁ h₁ hc₁ => ?_
    refine (staysIn_expect hc₁ _).bind_after fun _ c₂ h₂ hc₂ => ?_
    refine (staysIn_expression ih (by omega) hc₂ _ _).bind_from fun _ c₃ h₃ hc₃ => ?_
    refine (staysIn_expect hc₃ _).bind_after fun _ c₄ h₄ hc₄ => ?_
    exact (staysIn_expression ih (by omega) hc₄ _ _).bind_from fun _ _ _ hc₅ => .ends hc₅

/-- A `for` statement ends with its body. -/
theorem staysIn_forRest (hn : c.remaining ≤ n) (hc : c.PlaceIn whole) :
    StaysIn whole After.rest c.forRest := by
  rw [forRest]
  refine (staysIn_expect hc _).bind_after fun opening c₁ h₁ hc₁ => ?_
  have hn₁ : c₁.remaining ≤ n := by omega
  refine (staysIn_forClauses ih hn₁ hc₁ opening).bind_after fun _ c₂ h₂ hc₂ => ?_
  refine (staysIn_expect hc₂ _).bind_after fun _ c₃ h₃ hc₃ => ?_
  exact (ih.statement (by omega) hc₃).bind_after fun _ _ _ hc₄ => .ends hc₄

/-- Handlers end where no other begins. -/
theorem staysIn_catches {c : Cursor} (hn : c.remaining ≤ n) (hc : c.PlaceIn whole) :
    StaysIn whole From.rest c.catches := by
  rw [catches]
  split
  · exact .ends hc
  · next c₁ h₁ hcatch =>
    have hc₁ : c₁.PlaceIn whole := hc.of_accept? hcatch
    refine (staysIn_catchParameter hc₁).bind_after fun _ c₂ h₂ hc₂ => ?_
    have hn₂ : c₂.remaining ≤ n := by omega
    refine (staysIn_block ih hn₂ hc₂).bind_after fun _ c₃ h₃ hc₃ => ?_
    have hn₃ : c₃.remaining ≤ n := by omega
    exact (staysIn_catches hn₃ hc₃).bind_from fun _ _ _ hc₄ => .ends hc₄
termination_by c.remaining

/-- Without a parenthesis the cursor is not moved. -/
theorem staysIn_optionalArguments (hn : c.remaining ≤ n) (hc : c.PlaceIn whole) :
    StaysIn whole From.rest c.optionalArguments := by
  unfold optionalArguments
  split
  · exact (staysIn_arguments ih hn hc).toFrom
  · exact .ends hc

/-- A `try` statement ends with the last of its blocks. -/
theorem staysIn_tryRest (hn : c.remaining ≤ n) (hc : c.PlaceIn whole) :
    StaysIn whole After.rest c.tryRest := by
  rw [tryRest_eq]
  refine (staysIn_optionalArguments ih hn hc).bind_from fun _ c₁ h₁ hc₁ => ?_
  refine (staysIn_block ih (by omega) hc₁).bind_after fun _ c₂ h₂ hc₂ => ?_
  refine (staysIn_catches ih (by omega) hc₂).bind_from fun _ c₃ h₃ hc₃ => ?_
  dsimp only
  split
  · next c₄ h₄ hfinally =>
    have hc₄ : c₄.PlaceIn whole := hc₃.of_accept? hfinally
    exact (staysIn_block ih (by omega) hc₄).bind_after fun _ _ _ hc₅ => .ends hc₅
  · exact .ends hc₃

/-- Without a brace the cursor is not moved. -/
theorem staysIn_optionalBody (hn : c.remaining < n) (hc : c.PlaceIn whole) :
    StaysIn whole From.rest c.optionalBody := by
  unfold optionalBody
  split
  · exact (ih.typeBody hn hc).bind_after fun _ _ _ hc₁ => .ends hc₁
  · exact .ends hc

/-- A constant of an enum ends behind its name, its arguments or its body. -/
theorem staysIn_enumConstant (hn : c.remaining ≤ n) (hc : c.PlaceIn whole) :
    StaysIn whole After.rest c.enumConstant := by
  rw [enumConstant_eq]
  refine (staysIn_modifiers hc).bind_from fun _ c₁ h₁ hc₁ => ?_
  refine (staysIn_name hc₁ _).bind_after fun _ c₂ h₂ hc₂ => ?_
  refine (staysIn_optionalArguments ih (by omega) hc₂).bind_from fun _ c₃ h₃ hc₃ => ?_
  exact (staysIn_optionalBody ih (by omega) hc₃).bind_from fun _ _ _ hc₄ => .ends hc₄

/-- A method ends behind its body or its semicolon. -/
theorem staysIn_methodBody (hn : c.remaining ≤ n) (hc : c.PlaceIn whole) :
    StaysIn whole After.rest c.methodBody := by
  rw [methodBody]
  refine (staysIn_methodClauses hc).bind_from fun _ c₁ h₁ hc₁ => ?_
  dsimp only
  split
  · next hview => exact .ends (hc₁.of_view hview)
  · next c₂ h₂ hview =>
    have hc₂ := hc₁.of_view hview
    refine (staysIn_expression ih (by omega) hc₂ _ _).bind_from fun _ c₃ h₃ hc₃ => ?_
    exact (staysIn_expect hc₃ _).bind_after fun _ _ _ hc₄ => .ends hc₄
  · exact (staysIn_block ih (by omega) hc₁).bind_after fun _ _ _ hc₂ => .ends hc₂

/-- A parenthesis behind the name decides between a method and fields, and both stay. -/
theorem staysIn_methodOrFields (hn : c.remaining ≤ n) (hc : c.PlaceIn whole)
    (ms : List Modifier) : StaysIn whole After.rest (c.methodOrFields ms) := by
  rw [methodOrFields]
  refine (staysIn_typeRef hc).bind_after fun _ c₁ h₁ hc₁ => ?_
  refine (staysIn_name hc₁ _).bind_after fun _ c₂ h₂ hc₂ => ?_
  have hn₂ : c₂.remaining ≤ n := by omega
  dsimp only
  split
  · refine (staysIn_parameters hc₂).bind_after fun _ c₃ h₃ hc₃ => ?_
    exact (staysIn_methodBody ih (by omega) hc₃).bind_after fun _ _ _ hc₄ => .ends hc₄
  · refine (staysIn_declarators ih hn₂ hc₂ _ _ _ _).bind_from fun _ c₃ h₃ hc₃ => ?_
    exact (staysIn_expect hc₃ _).bind_after fun _ _ _ hc₄ => .ends hc₄

/-- A constructor ends with its block. -/
theorem staysIn_constructor (hn : c.remaining ≤ n) (hc : c.PlaceIn whole) (ms : List Modifier) :
    StaysIn whole After.rest (c.constructor ms) := by
  rw [constructor]
  refine (staysIn_name hc _).bind_after fun _ c₁ h₁ hc₁ => ?_
  refine (staysIn_parameters hc₁).bind_after fun _ c₂ h₂ hc₂ => ?_
  refine (staysIn_header hc₂).bind_from fun _ c₃ h₃ hc₃ => ?_
  exact (staysIn_block ih (by omega) hc₃).bind_after fun _ _ _ hc₄ => .ends hc₄

/-- The declaration of a member ends where the type, the constructor, the method or the fields end.
-/
theorem staysIn_memberDeclaration (hn : c.remaining < n) (hc : c.PlaceIn whole) :
    StaysIn whole After.rest c.memberDeclaration := by
  rw [memberDeclaration]
  refine (staysIn_modifiers hc).bind_from fun ms c₁ h₁ hc₁ => ?_
  dsimp only
  split
  · exact (ih.typeDeclaration (by omega) hc₁ ms).bind_after fun _ _ _ hc₂ => .ends hc₂
  · refine (staysIn_typeArguments? hc₁).bind_from fun _ c₂ h₂ hc₂ => ?_
    dsimp only
    split
    · exact (staysIn_constructor ih (by omega) hc₂ ms).bind_after fun _ _ _ hc₃ => .ends hc₃
    · exact (staysIn_methodOrFields ih (by omega) hc₂ ms).bind_after fun _ _ _ hc₃ => .ends hc₃

/-- A member is a semicolon, an initializer or a declaration, told apart without moving the cursor.
-/
theorem staysIn_member (hn : c.remaining < n) (hc : c.PlaceIn whole) :
    StaysIn whole After.rest c.member := by
  rw [member]
  split
  · next hview => exact .ends (hc.of_view hview)
  · exact (staysIn_block ih (Nat.le_of_lt hn) hc).bind_after fun _ _ _ hc₁ => .ends hc₁
  · next c₁ h₁ hview =>
    split
    · have hc₁ := hc.of_view hview
      exact (staysIn_block ih (by omega) hc₁).bind_after fun _ _ _ hc₂ => .ends hc₂
    · exact staysIn_memberDeclaration ih hn hc
  · exact staysIn_memberDeclaration ih hn hc

/-- Members end in front of a brace, or at the end of the text. -/
theorem staysIn_members {c : Cursor} (hn : c.remaining < n) (hc : c.PlaceIn whole) :
    StaysIn whole From.rest c.members :=
  staysIn_row readsRow_members (staysIn_member ih) hn hc

/-- The constants and members of an enum end in front of a brace. At the end of the text the name of
a constant is missed. -/
theorem staysIn_enumConstants {c : Cursor} (hn : c.remaining < n) (hc : c.PlaceIn whole) :
    StaysIn whole From.rest c.enumConstants := by
  rw [enumConstants]
  split
  · next c₁ h₁ hview =>
    have hc₁ := hc.of_view hview
    exact (staysIn_members ih (by omega) hc₁).bind_from fun _ _ _ hc₂ => .ends hc₂
  · exact .ends hc
  · next c₁ h₁ hview =>
    have hc₁ := hc.of_view hview
    exact (staysIn_enumConstants (by omega) hc₁).bind_from fun _ _ _ hc₂ => .ends hc₂
  · refine (staysIn_enumConstant ih (Nat.le_of_lt hn) hc).bind_after fun _ c₁ h₁ hc₁ => ?_
    exact (staysIn_enumConstants (by omega) hc₁).bind_from fun _ _ _ hc₂ => .ends hc₂
termination_by c.remaining

/-- The body of a type ends behind its brace. -/
theorem staysIn_typeBody (hn : c.remaining ≤ n) (hc : c.PlaceIn whole) :
    StaysIn whole After.rest c.typeBody := by
  rw [typeBody_eq]
  exact staysIn_braces hc fun hbehind hc₁ => staysIn_members ih (by omega) hc₁

/-- The body of an enum ends behind its brace. -/
theorem staysIn_enumBody (hn : c.remaining ≤ n) (hc : c.PlaceIn whole) :
    StaysIn whole After.rest c.enumBody := by
  rw [enumBody_eq]
  exact staysIn_braces hc fun hbehind hc₁ => staysIn_enumConstants ih (by omega) hc₁

/-- A type ends with its body. -/
theorem staysIn_typeDeclaration (hn : c.remaining ≤ n) (hc : c.PlaceIn whole)
    (ms : List Modifier) : StaysIn whole After.rest (c.typeDeclaration ms) := by
  rw [typeDeclaration]
  refine (staysIn_typeHeading hc ms).bind_after fun _ c₁ h₁ hc₁ => ?_
  dsimp only
  split
  · exact (staysIn_enumBody ih (by omega) hc₁).bind_after fun _ _ _ hc₂ => .ends hc₂
  · exact (staysIn_typeBody ih (by omega) hc₁).bind_after fun _ _ _ hc₂ => .ends hc₂

/-- Modifiers that no type follows are put back, so what is read then begins at the cursor. -/
theorem staysIn_localClass (hn : c.remaining ≤ n) (hc : c.PlaceIn whole) :
    StaysIn whole After.rest c.localClass := by
  refine (staysIn_modifiers hc).bind_from fun ms c₁ h₁ hc₁ => ?_
  dsimp only
  split
  · exact (staysIn_typeDeclaration ih (by omega) hc₁ ms).bind_after fun _ _ _ hc₂ => .ends hc₂
  · exact staysIn_localOrExpression ih hn hc

/-- Each step of a statement ends at a place of the whole. -/
theorem staysIn_statementStep (hn : c.remaining < n) (hc : c.PlaceIn whole)
    (step : StatementStep) : StaysIn whole From.rest (step.read c) := by
  have hle : c.remaining ≤ n := Nat.le_of_lt hn
  cases step with
  | skip => exact .ends hc.skip
  | mark m => exact (staysIn_expect hc m).bind fun _ hc₁ => .ends hc₁
  | otherwise =>
    rw [StatementStep.read]
    split
    · next r₁ helse =>
      have hc₁ : r₁.rest.PlaceIn whole := hc.of_accept? helse
      have hn₁ : r₁.rest.remaining < n := Nat.lt_trans r₁.behind hn
      exact (ih.statement hn₁ hc₁).bind fun _ hc₂ => .ends hc₂
    · exact .ends hc
  | expression => exact staysIn_expression ih hle hc _ _
  | arguments => exact (staysIn_arguments ih hle hc).bind fun _ hc₁ => .ends hc₁
  | statement => exact (ih.statement hn hc).bind fun _ hc₁ => .ends hc₁
  | block => exact (staysIn_block ih hle hc).bind fun _ hc₁ => .ends hc₁
  | switchBody => exact (staysIn_switchBody ih hle hc).bind fun _ hc₁ => .ends hc₁
  | forRest => exact (staysIn_forRest ih hle hc).bind fun _ hc₁ => .ends hc₁
  | tryRest => exact (staysIn_tryRest ih hle hc).bind fun _ hc₁ => .ends hc₁

omit c in
/-- The steps of a statement stay in the sequence one behind the other. The induction is on the
steps, and each is a reader that is known to stay. -/
theorem staysIn_readAll {c : Cursor} (hn : c.remaining < n) (hc : c.PlaceIn whole)
    (steps : List StatementStep) : StaysIn whole From.rest (StatementStep.readAll c steps) := by
  induction steps generalizing c with
  | nil => exact .ends hc
  | cons step steps ihSteps =>
    refine (staysIn_statementStep ih hn hc step).bind fun r₁ hc₁ => ?_
    exact (ihSteps (Nat.lt_of_le_of_lt r₁.notBefore hn) hc₁).bind fun _ hc₂ => .ends hc₂

/-- A statement stays in the sequence, whatever its form is: a form is a row of steps, or one of the
readers above. -/
theorem staysIn_statement (hn : c.remaining ≤ n) (hc : c.PlaceIn whole) :
    StaysIn whole After.rest c.statement := by
  rw [statement_eq]
  generalize statementForm c.current c.following = form
  cases form with
  | block => exact (staysIn_block ih hn hc).bind fun _ hc₁ => .ends hc₁
  | row steps =>
    rw [StatementForm.read]
    split
    · exact .fails hc _
    · next c₁ h₁ hview =>
      have hn₁ : c₁.remaining < n := Nat.lt_of_lt_of_le h₁ hn
      exact (staysIn_readAll ih hn₁ (hc.of_view hview) steps).bind fun _ hc₂ => .ends hc₂
  | localClass => exact staysIn_localClass ih hn hc
  | localOrExpression => exact staysIn_localOrExpression ih hn hc

end

/-- At no cursor does a reader leave the sequence. The readers that call each other are taken
together, by induction on the tokens that are left. -/
theorem staysBelow (whole : Cursor) (n : Nat) : StaysBelow whole n := by
  induction n with
  | zero => exact ⟨nofun, nofun, nofun, nofun⟩
  | succ n ih =>
    exact
      { typeBody := fun hn hc => staysIn_typeBody ih (Nat.le_of_lt_succ hn) hc
        typeDeclaration := fun hn hc => staysIn_typeDeclaration ih (Nat.le_of_lt_succ hn) hc
        statement := fun hn hc => staysIn_statement ih (Nat.le_of_lt_succ hn) hc
        expression := fun hn hc => staysIn_expression ih (Nat.le_of_lt_succ hn) hc }

/-! ## Compilation units -/

/-- An entry ends behind its semicolon, its directive or its type, or fails at one of its tokens. -/
theorem staysIn_unitEntry {c : Cursor} (hc : c.PlaceIn whole) :
    StaysIn whole After.rest c.unitEntry := by
  rw [unitEntry]
  split
  · next hview => exact .ends (hc.of_view hview)
  case h_2 | h_3 => exact (staysIn_directive hc).bind_after fun _ _ _ hc₁ => .ends hc₁
  · rw [withModifiers]
    refine (staysIn_modifiers hc).bind_from fun ms c₁ h₁ hc₁ => ?_
    dsimp only
    split
    · exact (staysIn_directive hc₁).bind_after fun _ _ _ hc₂ => .ends hc₂
    · exact ((staysBelow whole _).typeDeclaration (Nat.lt_succ_self _) hc₁ ms).bind_after
        fun _ _ _ hc₂ => .ends hc₂

/-- A unit ends at the end of the text, or fails at one of its tokens. -/
theorem staysIn_declarations {c : Cursor} (hc : c.PlaceIn whole) :
    StaysIn whole From.rest c.declarations := by
  by_cases heof : c.current = .eof
  · rw [declarations_of_current heof]
    exact .ends hc
  · rw [declarations_eq heof]
    refine (staysIn_unitEntry hc).bind_after fun _ c₁ h₁ hc₁ => ?_
    exact (staysIn_declarations hc₁).bind_from fun _ _ _ hc₂ => .ends hc₂
termination_by c.remaining

end Cursor

end FieldShadow
