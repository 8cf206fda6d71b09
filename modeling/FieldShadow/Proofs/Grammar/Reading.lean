import FieldShadow.Proofs.Grammar.Conformance
import FieldShadow.Proofs.Grammar.Core

/-!
# Readers on known tokens

What the readers of the grammar give where the tokens are known: names, types, modifiers, parameters
and headings. A reader passes exactly the tokens of its rule, whatever stands behind them (`Reads`);
some need to know of the next token that it does not go on.

## How a reading is stated

`Reads read follow ls a` says that `read`, in front of the tokens `ls` and of any others of which
the first is in `follow`, gives `a` and stands behind `ls`. What follows is not part of what is read
but decides where it ends: a type goes on at a bracket or a dot, modifiers go on at another one.

Places are the tokens that are left, so `Gives` and `GivesFrom` speak of the rest of the row and not
of an index. Rows are concatenations, and the proofs bring them into the form in which the next
reader finds its own tokens at the front.
-/

namespace FieldShadow

namespace Cursor

/-! ## Readers and rows of tokens -/

variable {α : Type}

/-- A reader goes well, and this is what it gives and where it leads. -/
def Gives (f : (c : Cursor) → Except SyntaxError (After c α)) (c : Cursor) (value : α)
    (d : Cursor) : Prop :=
  ∃ r, f c = .ok r ∧ r.value = value ∧ r.rest = d

/-- The same of a reader that may stay where it is. -/
def GivesFrom (f : (c : Cursor) → Except SyntaxError (From c α)) (c : Cursor) (value : α)
    (d : Cursor) : Prop :=
  ∃ r, f c = .ok r ∧ r.value = value ∧ r.rest = d

/-- The result of a reader that moves on, with the proof that it did. -/
theorem Gives.eq {f : (c : Cursor) → Except SyntaxError (After c α)} {c d : Cursor} {value : α}
    (h : Gives f c value d) : ∃ h, f c = .ok ⟨value, d, h⟩ := by
  obtain ⟨⟨_, _, h⟩, heq, rfl, rfl⟩ := h
  exact ⟨h, heq⟩

/-- The result of a reader that may stand still, with the proof that it did not go back. -/
theorem GivesFrom.eq {f : (c : Cursor) → Except SyntaxError (From c α)} {c d : Cursor}
    {value : α} (h : GivesFrom f c value d) : ∃ h, f c = .ok ⟨value, d, h⟩ := by
  obtain ⟨⟨_, _, h⟩, heq, rfl, rfl⟩ := h
  exact ⟨h, heq⟩

/-- A reader passes these tokens and gives this value, if a token that `follow` holds of stands
behind them. -/
def Reads (f : (c : Cursor) → Except SyntaxError (After c α)) (follow : Token → Prop)
    (ls : List Lexeme) (value : α) : Prop :=
  ∀ rest stop, follow (mk rest stop).current → Gives f ⟨ls ++ rest, stop⟩ value ⟨rest, stop⟩

/-- The same of a reader that may stay where it is. -/
def ReadsFrom (f : (c : Cursor) → Except SyntaxError (From c α)) (follow : Token → Prop)
    (ls : List Lexeme) (value : α) : Prop :=
  ∀ rest stop, follow (mk rest stop).current → GivesFrom f ⟨ls ++ rest, stop⟩ value ⟨rest, stop⟩

/-- Any token. -/
def anything : Token → Prop :=
  fun _ => True

/-! ## Names and types -/

open FieldShadow.Core

/-- Tokens that end a type. -/
def endsType (t : Token) : Prop :=
  t ≠ .dot ∧ t ≠ .less ∧ t ≠ .leftBracket

/-- Without an angle bracket no type arguments are read. -/
theorem typeArguments?_eq {c : Cursor} (h : c.current ≠ .less) :
    c.typeArguments? = .ok (c.stay ()) :=
  if_neg h

/-- The parts of a dotted name are put together, by induction on the parts. -/
theorem givesFrom_qualifiedName {ls : List Lexeme} {name full : String}
    (h : Parts ls name full) :
    ReadsFrom (fun c => c.qualifiedName name) (fun t => t ≠ .dot ∧ t ≠ .less) ls full := by
  intro rest stop hfollow
  induction h with
  | nil =>
    rw [GivesFrom, List.nil_append, qualifiedName]
    split
    · next hview => exact absurd (current_of_view hview) hfollow.1
    · exact ⟨_, rfl, rfl, rfl⟩
  | @cons ls name part full s s' parts ih =>
    have hless : (mk (ls ++ rest) stop).current ≠ .less := by
      cases parts with
      | nil => exact hfollow.2
      | cons => simp
    obtain ⟨_, heq⟩ := GivesFrom.eq ih
    rw [GivesFrom, List.cons_append, List.cons_append, qualifiedName]
    simp [typeArguments?_eq hless, stay, heq]

/-- Each pair of brackets wraps the type once more. -/
theorem dimensions_eq {ls : List Lexeme} {type type' : TypeRef}
    (h : Dimensions ls type type') (rest : List Lexeme) (stop : Span)
    (hfollow : (mk rest stop).current ≠ .leftBracket) :
    ∃ h, (mk (ls ++ rest) stop).dimensions type = ⟨type', ⟨rest, stop⟩, h⟩ := by
  induction h with
  | nil =>
    rw [List.nil_append]
    refine ⟨Nat.le_refl _, ?_⟩
    rw [dimensions]
    split
    · next hview => exact absurd (current_of_view hview) hfollow
    · rfl
  | cons more ih =>
    obtain ⟨hle, heq⟩ := ih
    simp only [List.cons_append]
    rw [dimensions]
    refine ⟨?_, by simp [heq]⟩
    exact ((hle.trans_lt (behind_cons _ _ _)).trans (behind_cons _ _ _)).le

/-- In front of dimensions stands a bracket, or what stands behind them if there are none. -/
theorem current_dimensions {ls : List Lexeme} {type type' : TypeRef}
    (h : Dimensions ls type type') (rest : List Lexeme) (stop : Span) :
    (mk (ls ++ rest) stop).current = .leftBracket ∨
      (mk (ls ++ rest) stop).current = (mk rest stop).current := by
  cases h with
  | nil => exact .inr rfl
  | cons => exact .inl rfl

/-- A type is read up to a token that no type goes on with. -/
theorem reads_typeRef {ls : List Lexeme} {type : TypeRef} (h : IsType ls type) :
    Reads typeRef endsType ls type := by
  intro rest stop hfollow
  cases h with | @mk _ ld full _ isName dimensions =>
  cases isName with | @mk ln first _ s parts =>
  obtain ⟨_, hdimensions⟩ := dimensions_eq dimensions rest stop hfollow.2.2
  -- neither dimensions nor what ends a type goes on with the name
  have hnext : (mk (ld ++ rest) stop).current ≠ .dot ∧ (mk (ld ++ rest) stop).current ≠ .less := by
    rcases current_dimensions dimensions rest stop with h | h
    · simp [h]
    · rw [h]
      exact ⟨hfollow.1, hfollow.2.1⟩
  have hless : (mk (ln ++ (ld ++ rest)) stop).current ≠ .less := by
    cases parts with
    | nil => exact hnext.2
    | cons => simp
  obtain ⟨_, hname⟩ := (givesFrom_qualifiedName parts (ld ++ rest) stop hnext).eq
  simp only [List.cons_append, List.append_assoc]
  rw [Gives, typeRef, annotationUses]
  simp [typeArguments?_eq hless, stay, hname, hdimensions]

/-- The type that a method gives is read the same, `void` too. -/
theorem reads_result {ls : List Lexeme} {type : TypeRef} (h : IsResult ls type) :
    Reads typeRef endsType ls type := by
  cases h with
  | type isType => exact reads_typeRef isType
  | void =>
    intro rest stop hfollow
    obtain ⟨_, hdimensions⟩ := dimensions_eq (@Dimensions.nil .void) rest stop hfollow.2.2
    simp only [List.cons_append, List.nil_append] at hdimensions ⊢
    rw [Gives, typeRef, annotationUses]
    simp [stay, hdimensions]

/-! ## Modifiers -/

/-- The further parts of an annotation's name are passed up to a token that is no dot. -/
theorem qualifiers_eq {ls : List Lexeme} {name full : String} (h : Parts ls name full)
    (rest : List Lexeme) (stop : Span) (hfollow : (mk rest stop).current ≠ .dot) :
    ∃ h, (mk (ls ++ rest) stop).qualifiers = ⟨(), ⟨rest, stop⟩, h⟩ := by
  induction h with
  | nil =>
    rw [List.nil_append]
    refine ⟨Nat.le_refl _, ?_⟩
    rw [qualifiers]
    split
    · next hview => exact absurd (current_of_view hview) hfollow
    · rfl
  | cons parts ih =>
    obtain ⟨hle, heq⟩ := ih
    simp only [List.cons_append]
    rw [qualifiers]
    refine ⟨?_, by simp [heq]⟩
    exact ((hle.trans_lt (behind_cons _ _ _)).trans (behind_cons _ _ _)).le

/-- Passing balanced tokens inside a bracket leaves its depth as it was. -/
theorem gives_bracketed {ls : List Lexeme} (h : Balanced ls) {rest : List Lexeme} {stop : Span}
    {depth : Nat} {d : Cursor}
    (hrest : Gives (fun c => c.bracketed (depth + 1)) ⟨rest, stop⟩ () d) :
    Gives (fun c => c.bracketed (depth + 1)) ⟨ls ++ rest, stop⟩ () d := by
  induction h generalizing rest depth with
  | nil => exact hrest
  | plain hopens hcloses heof _ ih =>
    obtain ⟨_, heq⟩ := (ih hrest).eq
    simp only [List.cons_append]
    rw [Gives, bracketed]
    simp [heof, hopens, hcloses, heq]
  | @group t t' s s' ls ls' hopens _ hcloses _ ihInner ihRest =>
    have hopening : t ≠ .eof ∧ t.closes = false := by
      cases t <;> simp_all [Token.opens, Token.closes]
    have hclosing : t' ≠ .eof ∧ t'.opens = false := by
      cases t' <;> simp_all [Token.opens, Token.closes]
    -- the group is read one bracket deeper, and its closing bracket leads back
    have hmiddle : Gives (fun c => c.bracketed (depth + 1 + 1))
        ⟨⟨t', s'⟩ :: (ls' ++ rest), stop⟩ () d := by
      obtain ⟨_, heq⟩ := (ihRest hrest).eq
      rw [Gives, bracketed]
      simp [hclosing, hcloses, heq]
    obtain ⟨_, heq⟩ := (ihInner hmiddle).eq
    simp only [List.cons_append, List.append_assoc]
    rw [Gives, bracketed]
    simp [hopening, hopens, heq]

/-- An annotation with its arguments, if it has some. -/
theorem gives_annotationUse {ls ls' : List Lexeme} {name : String} {s : Span}
    (h : IsName ls name) (hlist : ls' = [] ∨ ∃ s s' inner, Balanced inner ∧
      ls' = ⟨.leftParen, s⟩ :: inner ++ [⟨.rightParen, s'⟩]) :
    Reads annotationUse (fun t => t ≠ .dot ∧ t ≠ .leftParen) (⟨.at, s⟩ :: ls ++ ls') () := by
  intro rest stop hfollow
  cases h with | @mk first lp _ s' parts =>
  rcases hlist with rfl | ⟨sOpen, sClose, inner, hinner, rfl⟩
  · obtain ⟨_, heq⟩ := qualifiers_eq parts rest stop hfollow.1
    simp only [List.cons_append, List.append_nil]
    rw [Gives, annotationUse]
    simp [heq, hfollow.2]
  · obtain ⟨_, heq⟩ := qualifiers_eq parts
      (⟨.leftParen, sOpen⟩ :: (inner ++ ⟨.rightParen, sClose⟩ :: rest)) stop (by simp)
    have hclose : Gives (fun c => c.bracketed 1) ⟨⟨.rightParen, sClose⟩ :: rest, stop⟩ ()
        ⟨rest, stop⟩ := by
      rw [Gives, bracketed]
      simp [Token.closes]
    obtain ⟨_, hinner⟩ := (gives_bracketed hinner hclose).eq
    have hgroup : Gives (fun c => c.bracketed 0)
        ⟨⟨.leftParen, sOpen⟩ :: (inner ++ ⟨.rightParen, sClose⟩ :: rest), stop⟩ ()
        ⟨rest, stop⟩ := by
      rw [Gives, bracketed]
      simp [Token.closes, Token.opens, hinner]
    -- the group is read where the qualifiers end
    have hend : (mk (first ++ ⟨.leftParen, sOpen⟩ :: (inner ++ ⟨.rightParen, sClose⟩ :: rest))
        stop).qualifiers.rest = ⟨⟨.leftParen, sOpen⟩ :: (inner ++ ⟨.rightParen, sClose⟩ :: rest),
          stop⟩ := by
      rw [heq]
    rw [← hend] at hgroup
    obtain ⟨_, hgroup⟩ := hgroup.eq
    simp only [List.cons_append, List.append_assoc, List.nil_append]
    rw [Gives, annotationUse]
    simp [heq, hgroup]

/-- What may stand behind modifiers: a type declaration, or the type or name of a member. -/
def EndsModifiers (c : Cursor) : Prop :=
  c.startsType ∨ c.current = .keyword .void ∨ ∃ name, c.current = .identifier name

/-- The tokens that a declaration may begin with. -/
def startsDeclaration : Token → Bool
  | .modifier _ | .at | .identifier _ | .keyword .class_ | .keyword .interface | .keyword .enum
  | .keyword .void => true
  | _ => false

/-- Tokens that begin a declaration are none of those that do not. -/
theorem ne_of_startsDeclaration {t t' : Token} (h : startsDeclaration t)
    (h' : startsDeclaration t' = false) : t ≠ t' := by
  rintro rfl
  exact absurd h (by simp [h'])

/-- Where the modifiers end there is no modifier, and an at sign only in front of `interface`. -/
theorem EndsModifiers.current {c : Cursor} (h : c.EndsModifiers) :
    (∀ m, c.current ≠ .modifier m) ∧ (c.current = .at → c.following = .keyword .interface) := by
  rcases h with h | h | ⟨name, h⟩
  · unfold startsType at h
    split at h <;> simp_all
  · simp [h]
  · simp [h]

/-- Where the modifiers end a declaration goes on. -/
theorem EndsModifiers.startsDeclaration {c : Cursor} (h : c.EndsModifiers) :
    startsDeclaration c.current := by
  rcases h with h | h | ⟨name, h⟩
  · unfold startsType at h
    split at h <;> simp_all [Cursor.startsDeclaration]
  · simp [h, Cursor.startsDeclaration]
  · simp [h, Cursor.startsDeclaration]

theorem modifiers_eq_nil {c : Cursor} (h : c.EndsModifiers) : c.modifiers = .ok (c.stay []) := by
  obtain ⟨hmodifier, hat⟩ := h.current
  rw [modifiers]
  split
  · next hview => exact absurd (current_of_view hview) (hmodifier _)
  · next hview => exact if_pos (hat (current_of_view hview))
  · rfl

/-- A declaration begins with its first modifier, or with what stands behind them. -/
theorem startsDeclaration_modifiers {ls : List Lexeme} {ms : List Modifier}
    (h : Modifiers ls ms) {rest : List Lexeme} {stop : Span} (hend : (mk rest stop).EndsModifiers) :
    startsDeclaration (mk (ls ++ rest) stop).current := by
  cases h with
  | nil => exact hend.startsDeclaration
  | word | marker | annotated => simp [startsDeclaration]

/-- No modifier stands directly before a body. -/
theorem following_modifiers {ls : List Lexeme} {ms : List Modifier} (h : Modifiers ls ms)
    {rest : List Lexeme} {stop : Span} (hend : (mk rest stop).EndsModifiers) {m : Modifier}
    (hcurrent : (mk (ls ++ rest) stop).current = .modifier m) :
    startsDeclaration (mk (ls ++ rest) stop).following := by
  cases h with
  | nil => exact absurd hcurrent (hend.current.1 m)
  | word h => exact startsDeclaration_modifiers h hend
  | marker | annotated => simp at hcurrent

/-- Modifiers are read in order, annotations among them are passed, by induction on the row. -/
theorem givesFrom_modifiers {ls : List Lexeme} {ms : List Modifier} (h : Modifiers ls ms)
    {rest : List Lexeme} {stop : Span} (hend : (mk rest stop).EndsModifiers) :
    GivesFrom modifiers ⟨ls ++ rest, stop⟩ ms ⟨rest, stop⟩ := by
  induction h with
  | nil => exact ⟨_, modifiers_eq_nil hend, rfl, rfl⟩
  | @word ls m ms s h ih =>
    obtain ⟨_, heq⟩ := ih.eq
    have hnext := startsDeclaration_modifiers h hend
    have hparen : (mk (ls ++ rest) stop).current ≠ .leftParen := ne_of_startsDeclaration hnext rfl
    have hcolon : (mk (ls ++ rest) stop).current ≠ .colon := ne_of_startsDeclaration hnext rfl
    -- `synchronized (` and `default :` are the words that would be no modifiers
    have hstands : standsAsModifier m (mk (ls ++ rest) stop).current := by
      cases m <;> simp [standsAsModifier, hparen, hcolon]
    simp only [List.cons_append]
    rw [GivesFrom, modifiers]
    simp [hstands, heq]
  | @marker ls ls' name ms s hname h ih =>
    obtain ⟨_, heq⟩ := ih.eq
    have hnext := startsDeclaration_modifiers h hend
    have huse := gives_annotationUse (s := s) hname (.inl rfl) (ls' ++ rest) stop
      ⟨ne_of_startsDeclaration hnext rfl, ne_of_startsDeclaration hnext rfl⟩
    cases hname with | @mk first lp _ s' parts =>
    simp only [List.cons_append, List.append_assoc, List.append_nil] at huse ⊢
    obtain ⟨_, huse⟩ := huse.eq
    rw [GivesFrom, modifiers]
    simp [huse, heq]
  | @annotated ls inner ls' name ms s s' s'' hname hinner h ih =>
    obtain ⟨_, heq⟩ := ih.eq
    have hnext := startsDeclaration_modifiers h hend
    have huse := gives_annotationUse (s := s) hname
      (.inr ⟨s', s'', inner, hinner, rfl⟩) (ls' ++ rest) stop
      ⟨ne_of_startsDeclaration hnext rfl, ne_of_startsDeclaration hnext rfl⟩
    cases hname with | @mk first lp _ s' parts =>
    simp only [List.cons_append, List.append_assoc, List.nil_append] at huse ⊢
    obtain ⟨_, huse⟩ := huse.eq
    rw [GivesFrom, modifiers]
    simp [huse, heq]

/-! ## Parameters -/

/-- A type begins with a name. -/
theorem exists_cons_of_isType {ls : List Lexeme} {type : TypeRef} (h : IsType ls type) :
    ∃ name s ls', ls = ⟨.identifier name, s⟩ :: ls' := by
  cases h with | mk isName => cases isName with | mk => exact ⟨_, _, _, rfl⟩

theorem endsModifiers_isType {ls : List Lexeme} {type : TypeRef} (h : IsType ls type)
    (rest : List Lexeme) (stop : Span) : (mk (ls ++ rest) stop).EndsModifiers := by
  obtain ⟨name, s, ls', rfl⟩ := exists_cons_of_isType h
  exact .inr (.inr ⟨name, rfl⟩)

/-- What stands behind the first token of a type in front of a name. -/
theorem following_isType {ls : List Lexeme} {type : TypeRef} (h : IsType ls type)
    (name : String) (s : Span) (rest : List Lexeme) (stop : Span) :
    (mk (ls ++ ⟨.identifier name, s⟩ :: rest) stop).following ≠ .leftParen ∧
      (mk (ls ++ ⟨.identifier name, s⟩ :: rest) stop).following ≠ .colon := by
  cases h with | mk isName dimensions =>
  cases isName with | mk parts =>
  cases parts <;> cases dimensions <;> simp

theorem modifiers_isType {ls : List Lexeme} {type : TypeRef} (h : IsType ls type)
    (rest : List Lexeme) (stop : Span) :
    (mk (ls ++ rest) stop).modifiers = .ok (stay _ []) :=
  modifiers_eq_nil (endsModifiers_isType h rest stop)

/-- A type in front of a name. -/
theorem typeRef_isType {ls : List Lexeme} {type : TypeRef} (h : IsType ls type) (name : String)
    (s : Span) (rest : List Lexeme) (stop : Span) :
    ∃ h, (mk (ls ++ ⟨.identifier name, s⟩ :: rest) stop).typeRef =
      .ok ⟨type, ⟨⟨.identifier name, s⟩ :: rest, stop⟩, h⟩ :=
  (reads_typeRef h _ stop (by simp [endsType])).eq

/-- Without a bracket the type is left as it is. -/
theorem dimensions_of_ne {c : Cursor} (h : c.current ≠ .leftBracket) (type : TypeRef) :
    c.dimensions type = c.stay type := by
  rw [dimensions]
  split
  · next hview => exact absurd (current_of_view hview) h
  · rfl

/-- A parameter is read from its type and its name. -/
theorem reads_parameter {ls : List Lexeme} {type : TypeRef} (h : IsType ls type) (name : String)
    (s : Span) :
    Reads parameter (· ≠ .leftBracket) (ls ++ [⟨.identifier name, s⟩])
      [.leaf (.parameterDef name [] type) s] := by
  intro rest stop hfollow
  have hmodifiers := modifiers_isType h (⟨.identifier name, s⟩ :: rest) stop
  obtain ⟨_, htype⟩ := typeRef_isType h name s rest stop
  have hellipsis : (mk (⟨.identifier name, s⟩ :: rest) stop).accept? .ellipsis = none := by simp
  simp only [List.append_assoc, List.cons_append, List.nil_append]
  rw [Gives, parameter]
  simp only [hmodifiers, stay, htype, bind_ok]
  rw [hellipsis]
  simp [dimensions_of_ne hfollow, stay]

/-- Parameters are read one after the other, by induction on the further ones. -/
theorem reads_parameterList {ls ls' : List Lexeme} {type : TypeRef} {os : List Outline}
    (h : IsType ls type) (more : MoreParameters ls' os) (name : String) (s : Span) :
    Reads parameterList (· = .rightParen) (ls ++ ⟨.identifier name, s⟩ :: ls')
      (.leaf (.parameterDef name [] type) s :: os) := by
  intro rest stop hfollow
  induction more generalizing ls type name s with
  | nil =>
    have hfirst := reads_parameter h name s rest stop (by simp [hfollow])
    have hcomma : (mk rest stop).accept? .comma = none := accept?_eq_none (by simp [hfollow])
    simp only [List.append_assoc, List.cons_append, List.nil_append] at hfirst ⊢
    obtain ⟨_, hfirst⟩ := hfirst.eq
    rw [Gives, parameterList]
    simp [hfirst, hcomma]
  | @cons lt ls' name' type' s' s'' os isType _ ih =>
    -- the comma ends the first parameter, and the others are read from behind it
    have hfirst := reads_parameter h name s
      (⟨.comma, s'⟩ :: (lt ++ ⟨.identifier name', s''⟩ :: ls' ++ rest)) stop (by simp)
    have hothers := ih isType name' s''
    simp only [List.append_assoc, List.cons_append, List.nil_append] at hfirst hothers ⊢
    obtain ⟨_, hfirst⟩ := hfirst.eq
    obtain ⟨_, hothers⟩ := hothers.eq
    rw [Gives, parameterList]
    simp [hfirst, hothers]

/-- Parameters in parentheses are one node, also when there are none. -/
theorem reads_parameters {ls : List Lexeme} {os : List Outline} (h : Parameters ls os)
    (s s' : Span) :
    Reads parameters anything (⟨.leftParen, s⟩ :: ls ++ [⟨.rightParen, s'⟩])
      (.node .parameters s os) := by
  intro rest stop _
  cases h with
  | nil =>
    simp only [List.cons_append, List.nil_append]
    rw [Gives, parameters]
    simp [stay]
  | @cons lt lm name type s'' os isType more =>
    have hlist := reads_parameterList isType more name s'' (⟨.rightParen, s'⟩ :: rest) stop rfl
    obtain ⟨first, sFirst, lt, rfl⟩ := exists_cons_of_isType isType
    simp only [List.append_assoc, List.cons_append, List.nil_append] at hlist ⊢
    obtain ⟨_, hlist⟩ := hlist.eq
    rw [Gives, parameters]
    simp [hlist, Except.map, After.toFrom]

/-! ## Headings -/

/-- A type is the head of a declaration where a name and one of the tokens `follow` stand behind
it. -/
theorem declarationHead?_eq {ls : List Lexeme} {type : TypeRef} (h : IsType ls type)
    (follow : List Token) (name : String) (s : Span) (rest : List Lexeme) (stop : Span) :
    ∃ h, (mk (ls ++ ⟨.identifier name, s⟩ :: rest) stop).declarationHead? follow =
      if (mk rest stop).current ∈ follow then
        some ⟨([], type), ⟨⟨.identifier name, s⟩ :: rest, stop⟩, h⟩ else none := by
  have hmodifiers := modifiers_isType h (⟨.identifier name, s⟩ :: rest) stop
  obtain ⟨hbehind, htype⟩ := typeRef_isType h name s rest stop
  refine ⟨hbehind, ?_⟩
  rw [declarationHead?]
  simp [hmodifiers, stay, htype]

/-- The name of a method is no type of a variable. -/
theorem declarationHead?_call (follow : List Token) (name : String) (s s' : Span)
    (rest : List Lexeme) (stop : Span) :
    (mk (⟨.identifier name, s⟩ :: ⟨.leftParen, s'⟩ :: rest) stop).declarationHead? follow =
      none := by
  -- the name by itself is read as a type, but a bracket stands behind it
  have h : IsType [⟨.identifier name, s⟩] (.ofName name) := .mk (.mk .nil) .nil
  have hmodifiers := modifiers_isType h (⟨.leftParen, s'⟩ :: rest) stop
  obtain ⟨_, htype⟩ := (reads_typeRef h (⟨.leftParen, s'⟩ :: rest) stop (by simp [endsType])).eq
  simp only [List.cons_append, List.nil_append] at hmodifiers htype
  rw [declarationHead?]
  simp [hmodifiers, stay, htype]

/-- Without a bar a handler has one type. -/
theorem catchAlternatives_of_ne {c : Cursor} (h : c.current ≠ .operator "|") :
    c.catchAlternatives = .ok (c.stay ()) := by
  rw [catchAlternatives, accept?_eq_none h]
  rfl

/-- The parameter of a handler is read with its parentheses. -/
theorem reads_catchParameter {ls : List Lexeme} {type : TypeRef} (h : IsType ls type)
    (name : String) (s s' s'' : Span) :
    Reads catchParameter anything
      (⟨.leftParen, s⟩ :: ls ++ [⟨.identifier name, s'⟩, ⟨.rightParen, s''⟩])
      (.leaf (.parameterDef name [] type) s') := by
  intro rest stop _
  have hmodifiers :=
    modifiers_isType h (⟨.identifier name, s'⟩ :: ⟨.rightParen, s''⟩ :: rest) stop
  obtain ⟨_, htype⟩ := typeRef_isType h name s' (⟨.rightParen, s''⟩ :: rest) stop
  have halternatives :
      (mk (⟨.identifier name, s'⟩ :: ⟨.rightParen, s''⟩ :: rest) stop).catchAlternatives =
        .ok (stay _ ()) :=
    catchAlternatives_of_ne (by simp)
  simp only [List.append_assoc, List.cons_append, List.nil_append]
  rw [Gives, catchParameter]
  simp [hmodifiers, htype, halternatives, stay]

/-- In front of a body nothing is left of a header. -/
theorem header_eq {c : Cursor} (h : c.current = .leftBrace) : c.header = .ok (c.stay ()) := by
  obtain ⟨pending, stop⟩ := c
  obtain ⟨s, rest, rfl⟩ := eq_cons_of_current h (by simp)
  rw [header]
  simp

/-- The heading of a type other than an enum. -/
theorem reads_typeHeading {ls : List Lexeme} {kind : String → List Modifier → NodeKind} {s : Span}
    (h : TypeWord ls kind s) (ms : List Modifier) (name : String) (s' : Span) :
    Reads (fun c => c.typeHeading ms) (· = .leftBrace) (ls ++ [⟨.identifier name, s'⟩])
      (kind name ms, s.to s') := by
  intro rest stop hfollow
  cases h with
  | class_ | interface | atInterface =>
    simp only [List.cons_append, List.nil_append]
    rw [Gives, typeHeading]
    simp [header_eq hfollow, stay]

/-- The heading of an enum is its word and its name. -/
theorem reads_enumHeading (ms : List Modifier) (name : String) (s s' : Span) :
    Reads (fun c => c.typeHeading ms) (· = .leftBrace)
      [⟨.keyword .enum, s⟩, ⟨.identifier name, s'⟩] (.enumDef name ms, s.to s') := by
  intro rest stop hfollow
  simp only [List.cons_append, List.nil_append]
  rw [Gives, typeHeading]
  simp [header_eq hfollow, stay]

end Cursor

end FieldShadow
