import FieldShadow.Proofs.Grammar.Completeness
import FieldShadow.Proofs.Result

/-!
# Expressions are passed over

An expression is any row of tokens whose brackets pair up, with no terminator outside of them and
with a type behind every `new` (`Core.IsExpression`). The reader of expressions goes through all of
it and leaves nothing behind but the anonymous classes that are created there
(`Parser.next_eq_of_expression`).

## Shape of the argument

An expression has no end of its own. What can be said is that the reader, put in front of an
expression and of a place from which it goes on well, goes on through the expression to that place
(`Passes`). In this form the rules of `IsExpression` are closed under each other, at any depth of
brackets: behind an opening bracket the rest of the row is passed at a greater depth, and there
terminators are tokens like all others (`Apart`).

Creations are the one thing that is not passed over. Behind `new` stands a type, perhaps with
dimensions, and then arguments, elements or nothing. Only the body of a class leaves a node of its
own, and these nodes are what the expression gives.

The last part puts an expression into a class, as the value of a local variable, so that what is
shown is what a parser answers for a whole unit.
-/

namespace FieldShadow

namespace Core

/-! ## Types with type arguments -/

/-- What stands in the angle brackets of type arguments. -/
inductive Angled : List Lexeme → Prop
  | nil : Angled []
  | plain {t : Token} {s : Span} {ls : List Lexeme} (h : Cursor.inTypeArguments t)
      (rest : Angled ls) : Angled (⟨t, s⟩ :: ls)
  | group {ls ls' : List Lexeme} {s s' : Span} (inner : Angled ls) (rest : Angled ls') :
      Angled (⟨.less, s⟩ :: ls ++ ⟨.greater, s'⟩ :: ls')

/-- Type arguments, or nothing. -/
inductive TypeArguments : List Lexeme → Prop
  | none : TypeArguments []
  | some {ls : List Lexeme} {s s' : Span} (inner : Angled ls) :
      TypeArguments (⟨.less, s⟩ :: ls ++ [⟨.greater, s'⟩])

/-- The further parts of a dotted name that begins with `name`, each with its type arguments. -/
inductive TypeParts : List Lexeme → String → String → Prop
  | nil {name : String} : TypeParts [] name name
  | cons {la ls : List Lexeme} {name part full : String} {s s' : Span}
      (arguments : TypeArguments la) (rest : TypeParts ls (name ++ "." ++ part) full) :
      TypeParts (⟨.dot, s⟩ :: ⟨.identifier part, s'⟩ :: la ++ ls) name full

/-- A dotted name with type arguments. -/
inductive IsTypeName : List Lexeme → String → Prop
  | mk {la ls : List Lexeme} {name full : String} {s : Span} (arguments : TypeArguments la)
      (parts : TypeParts ls name full) : IsTypeName (⟨.identifier name, s⟩ :: la ++ ls) full

/-- A type whose name may have type arguments. -/
inductive IsFullType : List Lexeme → TypeRef → Prop
  | mk {ln ld : List Lexeme} {name : String} {type : TypeRef} (isName : IsTypeName ln name)
      (dimensions : Dimensions ld (.ofName name) type) : IsFullType (ln ++ ld) type

/-! ## Expressions -/

/-- `new` with type arguments of its own, annotations, and the name of what is created. -/
inductive CreationHead : List Lexeme → String → Prop
  | mk {la lm ln : List Lexeme} {full : String} {s : Span} (arguments : TypeArguments la)
      (annotations : Modifiers lm []) (isName : IsTypeName ln full) :
      CreationHead (⟨.keyword .new, s⟩ :: la ++ lm ++ ln) full

/-- A row of tokens that an expression may consist of, with the anonymous classes in it. Their
bodies are those that the reader of bodies accepts. Only inside of brackets there may be commas and
semicolons. -/
inductive IsExpression : (inside : Bool) → List Lexeme → List Outline → Prop
  | nil {inside : Bool} : IsExpression inside [] []
  | plain {inside : Bool} {t : Token} {s : Span} {ls : List Lexeme} {os : List Outline}
      (opens : ¬ t.opens) (closes : ¬ t.closes) (eof : t ≠ .eof) (new : t ≠ .keyword .new)
      (ends : inside ∨ t ≠ .comma ∧ t ≠ .semicolon) (rest : IsExpression inside ls os) :
      IsExpression inside (⟨t, s⟩ :: ls) os
  | group {inside : Bool} {t t' : Token} {s s' : Span} {ls ls' : List Lexeme}
      {os os' : List Outline} (opens : t.opens) (inner : IsExpression true ls os)
      (closes : t'.closes)
      (rest : IsExpression inside ls' os') :
      IsExpression inside (⟨t, s⟩ :: ls ++ ⟨t', s'⟩ :: ls') (os ++ os')
  /-- An object; without a brace behind the arguments it is of no class of its own. -/
  | object {inside : Bool} {lh ls ls' : List Lexeme} {name : String} {s s' : Span}
      {os os' : List Outline} (head : CreationHead lh name) (arguments : IsExpression true ls os)
      (next : ∀ l ∈ ls'.head?, l.token ≠ .leftBrace) (rest : IsExpression inside ls' os') :
      IsExpression inside (lh ++ ⟨.leftParen, s⟩ :: ls ++ ⟨.rightParen, s'⟩ :: ls') (os ++ os')
  /-- An object of an anonymous class. -/
  | anonymousClass {inside : Bool} {lh ls lb ls' : List Lexeme} {name : String} {s s' s'' : Span}
      {os os' : List Outline} {o : Outline} (head : CreationHead lh name)
      (arguments : IsExpression true ls os)
      (body : Cursor.Reads Cursor.typeBody Cursor.anything (⟨.leftBrace, s''⟩ :: lb) o)
      (rest : IsExpression inside ls' os') :
      IsExpression inside
        (lh ++ ⟨.leftParen, s⟩ :: ls ++ ⟨.rightParen, s'⟩ :: ⟨.leftBrace, s''⟩ :: lb ++ ls')
        (os ++ .node (.anonymousClass (.ofName name)) s'' [o] :: os')
  /-- An array of some size. -/
  | array {inside : Bool} {lh ls ls' : List Lexeme} {name : String} {s s' : Span}
      {os os' : List Outline} (head : CreationHead lh name) (size : IsExpression true ls os)
      (some : ls ≠ []) (rest : IsExpression inside ls' os') :
      IsExpression inside (lh ++ ⟨.leftBracket, s⟩ :: ls ++ ⟨.rightBracket, s'⟩ :: ls') (os ++ os')
  /-- An array with its elements. -/
  | arrayOf {inside : Bool} {lh ld ls ls' : List Lexeme} {name : String} {type : TypeRef}
      {s s' : Span} {os os' : List Outline} (head : CreationHead lh name)
      (dimensions : Dimensions ld (.ofName name) type) (elements : IsExpression true ls os)
      (rest : IsExpression inside ls' os') :
      IsExpression inside (lh ++ ld ++ ⟨.leftBrace, s⟩ :: ls ++ ⟨.rightBrace, s'⟩ :: ls')
        (os ++ os')

/-- A class with one method, which declares one local variable with a value and does nothing else:
the tokens before the value and behind it, and the outline of the class around that of the value. -/
inductive DeclaresLocal : (before behind : List Lexeme) → (List Outline → Outline) → Prop
  | mk {lm lm' lr lp lt : List Lexeme} {ms ms' : List Modifier} {result type : TypeRef}
      {className methodName name : String} {ps : List Outline}
      {s s₁ s₂ s₃ s₄ s₅ s₆ s₇ s₈ s₉ s₁₀ s₁₁ : Span} (modifiers : Modifiers lm ms)
      (methodModifiers : Modifiers lm' ms') (isResult : IsResult lr result)
      (parameters : Parameters lp ps) (isType : IsFullType lt type) :
      DeclaresLocal
        (lm ++ [⟨.keyword .class_, s⟩, ⟨.identifier className, s₁⟩, ⟨.leftBrace, s₂⟩] ++
          lm' ++ lr ++ [⟨.identifier methodName, s₃⟩, ⟨.leftParen, s₄⟩] ++ lp ++
          [⟨.rightParen, s₅⟩, ⟨.leftBrace, s₆⟩] ++ lt ++ [⟨.identifier name, s₇⟩, ⟨.equal, s₈⟩])
        [⟨.semicolon, s₉⟩, ⟨.rightBrace, s₁₀⟩, ⟨.rightBrace, s₁₁⟩]
        fun os => .node (.classDef className ms) (s.to s₁) [.node .typeBody s₂
          [.node (.methodDef methodName ms' result) s₃ [.node .parameters s₄ ps,
            .node .block s₆ [.node (.variableDef name [] type) s₇ os]]]]

end Core

namespace Cursor

open FieldShadow.Core

/-! ## Reading types with type arguments -/

/-- Passing what stands in angle brackets leaves their depth as it was. -/
theorem gives_typeArguments {ls : List Lexeme} (h : Angled ls) {rest : List Lexeme} {stop : Span}
    {depth : Nat} {d : Cursor}
    (hrest : Gives (fun c => c.typeArguments (depth + 1)) ⟨rest, stop⟩ () d) :
    Gives (fun c => c.typeArguments (depth + 1)) ⟨ls ++ rest, stop⟩ () d := by
  induction h generalizing rest depth with
  | nil => exact hrest
  | @plain t s ls hin _ ih =>
    have ht : t ≠ .eof ∧ t ≠ .less ∧ t ≠ .greater := by cases t <;> simp_all [inTypeArguments]
    obtain ⟨_, heq⟩ := (ih hrest).eq
    rw [Gives, List.cons_append, typeArguments]
    simp [ht, hin, heq]
  | @group ls ls' s s' _ _ ihInner ihRest =>
    -- behind the inner group the reader goes on one level further out
    have hmiddle : Gives (fun c => c.typeArguments (depth + 1 + 1))
        ⟨⟨.greater, s'⟩ :: (ls' ++ rest), stop⟩ () d := by
      obtain ⟨_, heq⟩ := (ihRest hrest).eq
      rw [Gives, typeArguments]
      simp [heq]
    obtain ⟨_, heq⟩ := (ihInner hmiddle).eq
    simp only [List.cons_append, List.append_assoc]
    rw [Gives, typeArguments]
    simp [heq]

/-- Type arguments are passed from their angle bracket to the one that closes it, or nothing is. -/
theorem readsFrom_typeArguments? {ls : List Lexeme} (h : TypeArguments ls) :
    ReadsFrom typeArguments? (· ≠ .less) ls () := by
  intro rest stop hfollow
  cases h with
  | none => exact ⟨_, typeArguments?_eq hfollow, rfl, rfl⟩
  | @some ls s s' inner =>
    have hclose : Gives (fun c => c.typeArguments 1) ⟨⟨.greater, s'⟩ :: rest, stop⟩ ()
        ⟨rest, stop⟩ := by
      rw [Gives, typeArguments]
      simp
    obtain ⟨_, hinner⟩ := (gives_typeArguments inner hclose).eq
    have hopen : Gives (fun c => c.typeArguments 0)
        ⟨⟨.less, s⟩ :: (ls ++ ⟨.greater, s'⟩ :: rest), stop⟩ () ⟨rest, stop⟩ := by
      rw [Gives, typeArguments]
      simp [hinner]
    obtain ⟨_, heq⟩ := hopen.eq
    simp only [List.cons_append, List.append_assoc, List.nil_append]
    rw [GivesFrom, typeArguments?]
    simp [heq, Except.map, After.toFrom]

/-- Behind a part of a type's name stands no opening angle bracket but that of its arguments. -/
theorem current_typeParts {ls : List Lexeme} {name full : String} (h : TypeParts ls name full)
    {rest : List Lexeme} {stop : Span} (hfollow : (mk rest stop).current ≠ .less) :
    (mk (ls ++ rest) stop).current ≠ .less := by
  cases h with
  | nil => exact hfollow
  | cons => simp

/-- The parts of a name are put together; the arguments of each are passed and leave nothing in the
name. -/
theorem readsFrom_qualifiedName {ls : List Lexeme} {name full : String}
    (h : TypeParts ls name full) :
    ReadsFrom (fun c => c.qualifiedName name) (fun t => t ≠ .dot ∧ t ≠ .less) ls full := by
  intro rest stop hfollow
  induction h with
  | nil => exact givesFrom_qualifiedName .nil rest stop hfollow
  | @cons la ls name part full s s' arguments parts ih =>
    obtain ⟨_, harguments⟩ := (readsFrom_typeArguments? arguments (ls ++ rest) stop
      (current_typeParts parts hfollow.2)).eq
    obtain ⟨_, heq⟩ := ih.eq
    simp only [List.cons_append, List.append_assoc]
    rw [GivesFrom, qualifiedName]
    simp [harguments, heq]

/-- An annotation in front of others is passed with them. -/
theorem annotationUses_cons {c d e : Cursor} (hat : c.current = .at)
    (huse : Gives annotationUse c () d) (hmore : GivesFrom annotationUses d () e) :
    GivesFrom annotationUses c () e := by
  obtain ⟨_, huse⟩ := huse.eq
  obtain ⟨_, hmore⟩ := hmore.eq
  rw [GivesFrom, annotationUses, if_pos hat]
  simp [huse, hmore]

/-- Annotations in front of a name; modifiers without words are annotations. -/
theorem givesFrom_annotationUses {ls : List Lexeme} {ms : List Modifier} (h : Modifiers ls ms)
    (hms : ms = []) {rest : List Lexeme} {stop : Span} {name : String}
    (hname : (mk rest stop).current = .identifier name) :
    GivesFrom annotationUses ⟨ls ++ rest, stop⟩ () ⟨rest, stop⟩ := by
  -- the name behind them is what ends the annotations
  have hend : (mk rest stop).EndsModifiers := .inr (.inr ⟨name, hname⟩)
  induction h with
  | nil =>
    rw [GivesFrom, List.nil_append, annotationUses, if_neg (by simp [hname])]
    exact ⟨_, rfl, rfl, rfl⟩
  -- only annotations are asked for
  | word => cases hms
  | @marker ls ls' name ms s isName h ih =>
    have hnext := startsDeclaration_modifiers h hend
    have huse := gives_annotationUse (s := s) isName (.inl rfl) (ls' ++ rest) stop
      ⟨ne_of_startsDeclaration hnext rfl, ne_of_startsDeclaration hnext rfl⟩
    rw [List.append_nil] at huse
    rw [List.append_assoc]
    exact annotationUses_cons rfl huse (ih hms)
  | @annotated ls inner ls' name ms s s' s'' isName arguments h ih =>
    have hnext := startsDeclaration_modifiers h hend
    have huse := gives_annotationUse (s := s) isName (.inr ⟨s', s'', inner, arguments, rfl⟩)
      (ls' ++ rest) stop
      ⟨ne_of_startsDeclaration hnext rfl, ne_of_startsDeclaration hnext rfl⟩
    have hmore := annotationUses_cons rfl huse (ih hms)
    simpa using hmore

/-- A type behind annotations; `type` comes of the dimensions behind its name. -/
theorem gives_typeRef {lm ln rest : List Lexeme} {stop : Span} {name : String} {type : TypeRef}
    {d : Cursor} (hannotations : Modifiers lm []) (hname : IsTypeName ln name)
    (hfollow : (mk rest stop).current ≠ .dot ∧ (mk rest stop).current ≠ .less)
    (hdimensions : ∃ h, (mk rest stop).dimensions (.ofName name) = ⟨type, d, h⟩) :
    Gives typeRef ⟨lm ++ (ln ++ rest), stop⟩ type d := by
  cases hname with | @mk la ls first _ s arguments parts =>
  have hannotations : GivesFrom annotationUses
      ⟨lm ++ ⟨.identifier first, s⟩ :: (la ++ (ls ++ rest)), stop⟩ () _ :=
    givesFrom_annotationUses hannotations rfl rfl
  obtain ⟨_, hannotations⟩ := hannotations.eq
  obtain ⟨_, harguments⟩ := (readsFrom_typeArguments? arguments (ls ++ rest) stop
    (current_typeParts parts hfollow.2)).eq
  obtain ⟨_, hparts⟩ := (readsFrom_qualifiedName parts rest stop hfollow).eq
  obtain ⟨_, hdimensions⟩ := hdimensions
  simp only [List.cons_append, List.append_assoc]
  rw [Gives, typeRef]
  simp [hannotations, harguments, hparts, hdimensions]

/-! ## Creations -/

/-- What the reader of creations does up to the type. -/
theorem creationHead_eq {lh rest : List Lexeme} {stop : Span} {name : String} {type : TypeRef}
    {d : Cursor} (h : CreationHead lh name)
    (hfollow : (mk rest stop).current ≠ .dot ∧ (mk rest stop).current ≠ .less)
    (hdimensions : ∃ h, (mk rest stop).dimensions (.ofName name) = ⟨type, d, h⟩) :
    ∃ s c₁ c₂ h₁ h₂ h₃, (mk (lh ++ rest) stop).current = .keyword .new ∧
      (mk (lh ++ rest) stop).expect .creation = .ok ⟨s, c₁, h₁⟩ ∧
      c₁.typeArguments? = .ok ⟨(), c₂, h₂⟩ ∧ c₂.typeRef = .ok ⟨type, d, h₃⟩ := by
  cases h with | @mk la lm ln _ s arguments annotations isName =>
  obtain ⟨_, htype⟩ := (gives_typeRef annotations isName hfollow hdimensions).eq
  -- an annotation or a name stands there, so no type arguments begin
  have hless : (mk (lm ++ (ln ++ rest)) stop).current ≠ .less := by
    cases isName with | @mk la ls first _ s =>
    have hend : (mk (⟨.identifier first, s⟩ :: la ++ ls ++ rest) stop).EndsModifiers :=
      .inr (.inr ⟨first, rfl⟩)
    exact ne_of_startsDeclaration (startsDeclaration_modifiers annotations hend) rfl
  obtain ⟨_, harguments⟩ := (readsFrom_typeArguments? arguments _ stop hless).eq
  have hrow : ⟨.keyword .new, s⟩ :: la ++ lm ++ ln ++ rest =
      ⟨.keyword .new, s⟩ :: (la ++ (lm ++ (ln ++ rest))) := by simp
  rw [hrow]
  exact ⟨s, _, _, behind_cons _ _ _, _, _, rfl, by simp, harguments, htype⟩

/-- An array is created where no parenthesis follows the type; what stands in the brackets is left
for the expression. -/
theorem gives_creation_array {lh rest : List Lexeme} {stop : Span} {name : String} {type : TypeRef}
    {d : Cursor} (h : CreationHead lh name)
    (hfollow : (mk rest stop).current ≠ .dot ∧ (mk rest stop).current ≠ .less)
    (hdimensions : ∃ h, (mk rest stop).dimensions (.ofName name) = ⟨type, d, h⟩)
    (hparen : d.current ≠ .leftParen) : Gives creation ⟨lh ++ rest, stop⟩ [] d := by
  obtain ⟨s, c₁, c₂, _, _, _, -, hnew, harguments, htype⟩ := creationHead_eq h hfollow hdimensions
  rw [Gives, creation]
  simp [hnew, harguments, htype, hparen]

/-- Without a brace behind its arguments an object leaves the classes of the arguments. -/
theorem gives_creation_object {lh ls rest : List Lexeme} {stop s s' : Span} {name : String}
    {os : List Outline} (h : CreationHead lh name) (harguments : Reads arguments anything
      (⟨.leftParen, s⟩ :: ls ++ [⟨.rightParen, s'⟩]) os)
    (hbrace : (mk rest stop).current ≠ .leftBrace) :
    Gives creation ⟨lh ++ (⟨.leftParen, s⟩ :: (ls ++ ⟨.rightParen, s'⟩ :: rest)), stop⟩ os
      ⟨rest, stop⟩ := by
  have harguments := harguments rest stop trivial
  simp only [List.cons_append, List.append_assoc, List.nil_append] at harguments
  obtain ⟨_, harguments⟩ := harguments.eq
  have hdimensions := dimensions_of_ne
    (c := ⟨⟨.leftParen, s⟩ :: (ls ++ ⟨.rightParen, s'⟩ :: rest), stop⟩) (by simp) (.ofName name)
  obtain ⟨_, c₁, c₂, _, _, _, -, hnew, hless, htype⟩ :=
    creationHead_eq h (by simp) ⟨_, hdimensions⟩
  rw [Gives, creation]
  simp [hnew, hless, htype, harguments, hbrace]

/-- With a body behind its arguments it leaves its own class behind those. -/
theorem gives_creation_anonymousClass {lh ls lb rest : List Lexeme} {stop s s' s'' : Span}
    {name : String} {os : List Outline} {o : Outline} (h : CreationHead lh name)
    (harguments : Reads arguments anything (⟨.leftParen, s⟩ :: ls ++ [⟨.rightParen, s'⟩]) os)
    (hbody : Reads typeBody anything (⟨.leftBrace, s''⟩ :: lb) o) :
    Gives creation ⟨lh ++ (⟨.leftParen, s⟩ :: (ls ++ ⟨.rightParen, s'⟩ ::
      ⟨.leftBrace, s''⟩ :: (lb ++ rest))), stop⟩
      (os ++ [.node (.anonymousClass (.ofName name)) s'' [o]]) ⟨rest, stop⟩ := by
  have harguments := harguments (⟨.leftBrace, s''⟩ :: lb ++ rest) stop trivial
  have hbody := hbody rest stop trivial
  simp only [List.cons_append, List.append_assoc, List.nil_append] at harguments hbody
  obtain ⟨_, harguments⟩ := harguments.eq
  obtain ⟨_, hbody⟩ := hbody.eq
  have hdimensions := dimensions_of_ne (c := ⟨⟨.leftParen, s⟩ ::
    (ls ++ ⟨.rightParen, s'⟩ :: ⟨.leftBrace, s''⟩ :: (lb ++ rest)), stop⟩) (by simp) (.ofName name)
  obtain ⟨_, c₁, c₂, _, _, _, -, hnew, hless, htype⟩ :=
    creationHead_eq h (by simp) ⟨_, hdimensions⟩
  rw [Gives, creation]
  simp [hnew, hless, htype, harguments, hbody]

/-! ## Expressions -/

/-- Whether no token inside of brackets, or outside of them, is among the terminators. -/
def Apart (inside : Bool) (ts : List Token) (depth : Nat) : Prop :=
  depth = 0 → ∀ t ∈ ts, t.closes ∨ inside = false ∧ (t = .comma ∨ t = .semicolon)

/-- Inside of brackets nothing ends the expression. -/
theorem Apart.succ {inside : Bool} {ts : List Token} {depth : Nat} :
    Apart inside ts (depth + 1) :=
  fun h => absurd h (Nat.succ_ne_zero depth)

/-- So a token that closes nothing and is no terminator is passed. -/
theorem Apart.not_mem {inside : Bool} {ts : List Token} {depth : Nat} (h : Apart inside ts depth)
    {t : Token} (hcloses : ¬ t.closes) (hends : inside ∨ t ≠ .comma ∧ t ≠ .semicolon) :
    ¬ (depth = 0 ∧ (t ∈ ts ∨ t.closes)) := by
  rintro ⟨hdepth, hmem | hcloses'⟩
  · rcases h hdepth t hmem with hcloses' | ⟨hinside, ht⟩
    · exact hcloses hcloses'
    · rcases hends with hends | hends
      · simp [hinside] at hends
      · exact ht.elim hends.1 hends.2
  · exact hcloses hcloses'

/-- A row is passed at every depth of brackets, up to terminators that are not in it. -/
def PassesRow (inside : Bool) (ls : List Lexeme) (os : List Outline) : Prop :=
  ∀ ts depth, Apart inside ts depth →
    Passes (fun c => c.expression ts depth) (· ≠ .leftBrace) ls os

/-- One token is passed at a depth, and the rest at the depth that it leads to. -/
theorem expression_token {t : Token} {s : Span} {rest : List Lexeme} {stop : Span}
    {ts : List Token} {depth depth' : Nat} {os : List Outline} {d : Cursor}
    (heof : t ≠ .eof) (hnew : t ≠ .keyword .new) (hends : ¬ (depth = 0 ∧ (t ∈ ts ∨ t.closes)))
    (hdepth : (if t.opens then depth + 1 else if t.closes then depth - 1 else depth) = depth')
    (hrest : GivesFrom (fun c => c.expression ts depth') ⟨rest, stop⟩ os d) :
    GivesFrom (fun c => c.expression ts depth) ⟨⟨t, s⟩ :: rest, stop⟩ os d := by
  obtain ⟨_, heq⟩ := hrest.eq
  rw [GivesFrom, expression, view_cons heof]
  simp only [if_neg hends, if_neg hnew, hdepth, heq]
  exact ⟨_, rfl, rfl, rfl⟩

/-- What is created is read where `new` stands, and the expression goes on at the same depth. -/
theorem expression_creation {c c₁ d : Cursor} {ts : List Token} {depth : Nat}
    {os os' : List Outline} (hnew : c.current = .keyword .new)
    (hends : ¬ (depth = 0 ∧ (.keyword .new ∈ ts ∨ (Token.keyword .new).closes)))
    (hcreation : Gives creation c os c₁)
    (hrest : GivesFrom (fun c => c.expression ts depth) c₁ os' d) :
    GivesFrom (fun c => c.expression ts depth) c (os ++ os') d := by
  obtain ⟨pending, stop⟩ := c
  obtain ⟨s, rest, rfl⟩ := eq_cons_of_current hnew (by simp)
  obtain ⟨_, hcreation⟩ := hcreation.eq
  obtain ⟨_, hrest⟩ := hrest.eq
  rw [GivesFrom, expression, view_cons (by simp)]
  simp only [if_neg hends, if_true, hcreation, bind_ok, hrest]
  exact ⟨_, rfl, rfl, rfl⟩

/-- Brackets of one kind around a row. -/
theorem passesRow_group {inside : Bool} {t t' : Token} {s s' : Span} {ls ls' : List Lexeme}
    {os os' : List Outline} (hopens : t.opens) (hcloses : t'.closes)
    (hinner : PassesRow true ls os) (hrest : PassesRow inside ls' os') :
    PassesRow inside (⟨t, s⟩ :: ls ++ ⟨t', s'⟩ :: ls') (os ++ os') := by
  intro ts depth hts rest stop others d hfollow hgives
  have hopening : t ≠ .eof ∧ t ≠ .keyword .new ∧ ¬ t.closes ∧ t ≠ .comma ∧ t ≠ .semicolon := by
    cases t <;> simp_all [Token.opens, Token.closes]
  have hclosing : t' ≠ .eof ∧ t' ≠ .keyword .new ∧ t' ≠ .leftBrace ∧ t'.opens = false := by
    cases t' <;> simp_all [Token.opens, Token.closes]
  have hclose : GivesFrom (fun c => c.expression ts (depth + 1))
      ⟨⟨t', s'⟩ :: (ls' ++ rest), stop⟩ (os' ++ others) d :=
    expression_token hclosing.1 hclosing.2.1 (by simp) (by simp [hclosing, hcloses])
      (hrest ts depth hts rest stop others d hfollow hgives)
  have hbody := hinner ts (depth + 1) .succ (⟨t', s'⟩ :: (ls' ++ rest)) stop _ d
    hclosing.2.2.1 hclose
  have hopen := expression_token hopening.1 hopening.2.1
    (hts.not_mem hopening.2.2.1 (.inr hopening.2.2.2)) (if_pos hopens) hbody (s := s)
  simpa using hopen

/-- A row in parentheses. -/
theorem reads_arguments {ls : List Lexeme} {os : List Outline} (h : PassesRow true ls os)
    (s s' : Span) : Reads arguments anything (⟨.leftParen, s⟩ :: ls ++ [⟨.rightParen, s'⟩]) os := by
  intro rest stop _
  have hend : GivesFrom (fun c => c.expression [.rightParen] 0)
      ⟨⟨.rightParen, s'⟩ :: rest, stop⟩ [] ⟨⟨.rightParen, s'⟩ :: rest, stop⟩ := by
    rw [GivesFrom, expression]
    simp [stay]
  have hapart : Apart true [.rightParen] 0 := fun _ t ht => by
    simp [List.mem_singleton.mp ht, Token.closes]
  have hinner := h _ _ hapart _ stop _ _ (by simp) hend
  obtain ⟨_, heq⟩ := hinner.eq
  simp only [List.cons_append, List.append_assoc, List.nil_append]
  rw [Gives, arguments]
  simp [heq]

/-- A creation in front of a row. -/
theorem passesRow_creation {inside : Bool} {ls ls' : List Lexeme} {os os' : List Outline}
    (hnew : ∀ rest stop, (mk (ls ++ rest) stop).current = .keyword .new)
    (h : ∀ rest stop, (mk rest stop).current ≠ .leftBrace →
      Gives creation ⟨ls ++ (ls' ++ rest), stop⟩ os ⟨ls' ++ rest, stop⟩)
    (hrest : PassesRow inside ls' os') : PassesRow inside (ls ++ ls') (os ++ os') := by
  intro ts depth hts rest stop others d hfollow hgives
  have hends : ¬ (depth = 0 ∧ (.keyword .new ∈ ts ∨ (Token.keyword .new).closes)) :=
    hts.not_mem (by simp [Token.closes]) (.inr (by simp))
  have hcreation := expression_creation (hnew _ stop) hends (h rest stop hfollow)
    (hrest ts depth hts rest stop others d hfollow hgives)
  simpa using hcreation

/-- A creation begins with `new`. -/
theorem current_creationHead {lh : List Lexeme} {name : String} (h : CreationHead lh name)
    (rest : List Lexeme) (stop : Span) : (mk (lh ++ rest) stop).current = .keyword .new := by
  cases h with
  | mk => rfl

/-- Brackets with something in them are no dimension. -/
theorem dimensions_of_size {ls : List Lexeme} {os : List Outline} (h : IsExpression true ls os)
    (hsome : ls ≠ []) (type : TypeRef) (s : Span) (rest : List Lexeme) (stop : Span) :
    (mk (⟨.leftBracket, s⟩ :: (ls ++ rest)) stop).dimensions type = stay _ type := by
  have hbracket : (mk (ls ++ rest) stop).current ≠ .rightBracket := by
    cases h with
    | nil => exact absurd rfl hsome
    | plain _ closes =>
      rintro heq
      simp_all [Token.closes]
    | group opens => 
      rintro heq
      simp_all [Token.opens]
    | object head | anonymousClass head | array head | arrayOf head =>
      simp [current_creationHead head]
  rw [dimensions]
  simp only [view_cons (t := .leftBracket) (by simp)]
  split
  · next hview => exact absurd (current_of_view hview) hbracket
  · rfl

section

variable {inside : Bool} {lh ls ls' : List Lexeme} {name : String} {s s' : Span}
  {os os' : List Outline} (head : CreationHead lh name) (hls : IsExpression true ls os)
  (ih : PassesRow true ls os) (hrest : PassesRow inside ls' os')
include head ih hrest

/-- An object in front of a row is passed with it. -/
theorem passesRow_object (hnext : ∀ l ∈ ls'.head?, l.token ≠ .leftBrace) :
    PassesRow inside (lh ++ ⟨.leftParen, s⟩ :: ls ++ ⟨.rightParen, s'⟩ :: ls') (os ++ os') := by
  have hcreation : PassesRow inside
      (lh ++ (⟨.leftParen, s⟩ :: ls ++ [⟨.rightParen, s'⟩]) ++ ls') (os ++ os') := by
    refine passesRow_creation (fun rest stop => ?_) (fun rest stop hfollow => ?_) hrest
    · rw [List.append_assoc]
      exact current_creationHead head _ stop
    · have hbrace : (mk (ls' ++ rest) stop).current ≠ .leftBrace := by
        cases ls' with
        | nil => exact hfollow
        | cons l ls' => exact hnext l rfl
      simpa using gives_creation_object head (reads_arguments ih s s') hbrace
  simpa using hcreation

/-- An object of a class of its own is passed too, and its class is left in front of those of the
row. -/
theorem passesRow_anonymousClass {lb : List Lexeme} {s'' : Span} {o : Outline}
    (hbody : Reads typeBody anything (⟨.leftBrace, s''⟩ :: lb) o) :
    PassesRow inside
      (lh ++ ⟨.leftParen, s⟩ :: ls ++ ⟨.rightParen, s'⟩ :: ⟨.leftBrace, s''⟩ :: lb ++ ls')
      (os ++ .node (.anonymousClass (.ofName name)) s'' [o] :: os') := by
  have hcreation : PassesRow inside
      (lh ++ (⟨.leftParen, s⟩ :: ls ++ ⟨.rightParen, s'⟩ :: ⟨.leftBrace, s''⟩ :: lb) ++ ls')
      ((os ++ [.node (.anonymousClass (.ofName name)) s'' [o]]) ++ os') := by
    refine passesRow_creation (fun rest stop => ?_) (fun rest stop _ => ?_) hrest
    · rw [List.append_assoc]
      exact current_creationHead head _ stop
    · simpa using gives_creation_anonymousClass head (reads_arguments ih s s') hbody
  simpa using hcreation

include hls in
/-- The brackets of an array creation are a row in brackets behind the type. -/
theorem passesRow_array (hsome : ls ≠ []) :
    PassesRow inside (lh ++ ⟨.leftBracket, s⟩ :: ls ++ ⟨.rightBracket, s'⟩ :: ls')
      (os ++ os') := by
  have hgroup : PassesRow inside (⟨.leftBracket, s⟩ :: ls ++ ⟨.rightBracket, s'⟩ :: ls')
      (os ++ os') := passesRow_group rfl rfl ih hrest
  have hcreation : PassesRow inside
      (lh ++ (⟨.leftBracket, s⟩ :: ls ++ ⟨.rightBracket, s'⟩ :: ls')) ([] ++ (os ++ os')) := by
    refine passesRow_creation (current_creationHead head) (fun rest stop _ => ?_) hgroup
    have hdimensions := dimensions_of_size hls hsome (.ofName name) s
      (⟨.rightBracket, s'⟩ :: (ls' ++ rest)) stop
    simpa using gives_creation_array head (by simp) ⟨_, hdimensions⟩ (by simp)
  simpa using hcreation

/-- An array with its elements in braces is passed: the braces are brackets of the expression. -/
theorem passesRow_arrayOf {ld : List Lexeme} {type : TypeRef}
    (hdimensions : Dimensions ld (.ofName name) type) :
    PassesRow inside (lh ++ ld ++ ⟨.leftBrace, s⟩ :: ls ++ ⟨.rightBrace, s'⟩ :: ls')
      (os ++ os') := by
  have hgroup : PassesRow inside (⟨.leftBrace, s⟩ :: ls ++ ⟨.rightBrace, s'⟩ :: ls')
      (os ++ os') := passesRow_group rfl rfl ih hrest
  have hcreation : PassesRow inside
      ((lh ++ ld) ++ (⟨.leftBrace, s⟩ :: ls ++ ⟨.rightBrace, s'⟩ :: ls')) ([] ++ (os ++ os')) := by
    refine passesRow_creation (fun rest stop => ?_) (fun rest stop _ => ?_) hgroup
    · rw [List.append_assoc]
      exact current_creationHead head _ stop
    · have hfollow := current_dimensions hdimensions
        (⟨.leftBrace, s⟩ :: ls ++ ⟨.rightBrace, s'⟩ :: ls' ++ rest) stop
      have hdimensions := dimensions_eq hdimensions
        (⟨.leftBrace, s⟩ :: ls ++ ⟨.rightBrace, s'⟩ :: ls' ++ rest) stop (by simp)
      rw [List.append_assoc]
      refine gives_creation_array head ?_ hdimensions (by simp)
      rcases hfollow with h | h <;> rw [h] <;> simp
  simpa using hcreation

end

/-- The reader of expressions goes through every expression. -/
theorem passesRow {inside : Bool} {ls : List Lexeme} {os : List Outline}
    (h : IsExpression inside ls os) : PassesRow inside ls os := by
  induction h with
  | nil =>
    intro ts depth _ rest stop others d _ hgives
    exact hgives
  | plain opens closes eof new ends _ ih =>
    intro ts depth hts rest stop others d hfollow hgives
    exact expression_token eof new (hts.not_mem closes ends) (by simp [opens, closes])
      (ih ts depth hts rest stop others d hfollow hgives)
  | group opens _ closes _ ihInner ihRest => exact passesRow_group opens closes ihInner ihRest
  | object head _ next _ ih ihRest => exact passesRow_object head ih ihRest next
  | anonymousClass head _ body _ ih ihRest => exact passesRow_anonymousClass head ih ihRest body
  | array head size some _ ih ihRest => exact passesRow_array head size ih ihRest some
  | arrayOf head dimensions _ _ ih ihRest => exact passesRow_arrayOf head ih ihRest dimensions

/-! ## Local variables -/

/-- The value of a variable is passed as an expression behind its equals sign. -/
theorem readsInitializer_expression {ls : List Lexeme} {s : Span} {os : List Outline}
    (h : IsExpression false ls os) : ReadsInitializer (⟨.equal, s⟩ :: ls) os := by
  refine ⟨?_, fun _ _ _ => .inl rfl⟩
  intro rest stop hfollow
  have hend : (mk rest stop).current ≠ .eof ∧ (mk rest stop).current ≠ .leftBrace := by
    rcases hfollow with h | h <;> simp [h]
  -- the terminator is left for the caller
  have hstays : GivesFrom (fun c => c.expression [.comma, .semicolon] 0) ⟨rest, stop⟩ []
      ⟨rest, stop⟩ := by
    cases rest with
    | nil => exact absurd rfl hend.1
    | cons l rest =>
      obtain ⟨t, s⟩ := l
      have heof : t ≠ .eof := hend.1
      have hmem : t = .comma ∨ t = .semicolon := hfollow
      rw [GivesFrom, expression]
      simp [heof, hmem, stay]
  -- inside the row the terminators are hidden by the depth of brackets
  have hapart : Apart false [.comma, .semicolon] 0 := fun _ t ht => .inr ⟨rfl, by simpa using ht⟩
  have hvalue := passesRow h _ _ hapart rest stop [] _ hend.2 hstays
  rw [List.append_nil] at hvalue
  obtain ⟨_, hvalue⟩ := hvalue.eq
  rw [GivesFrom, List.cons_append, initializer]
  simp [hvalue]

/-- What stands behind the first token of a type in front of a name. -/
theorem following_fullType {lt : List Lexeme} {type : TypeRef} (h : IsFullType lt type)
    (name : String) (s : Span) (rest : List Lexeme) (stop : Span) :
    ∃ first s' rest', lt ++ ⟨.identifier name, s⟩ :: rest = ⟨.identifier first, s'⟩ :: rest' ∧
      (mk rest' stop).current ≠ .colon := by
  cases h with | mk isName dimensions =>
  cases isName with | mk arguments parts =>
  refine ⟨_, _, _, rfl, ?_⟩
  cases arguments <;> cases parts <;> cases dimensions <;> simp

/-- A type in front of a name is taken for a heading exactly if one of the wanted tokens follows the
name. -/
theorem declarationHead?_fullType {lt : List Lexeme} {type : TypeRef} (h : IsFullType lt type)
    (follow : List Token) (name : String) (s : Span) (rest : List Lexeme) (stop : Span) :
    ∃ h, (mk (lt ++ ⟨.identifier name, s⟩ :: rest) stop).declarationHead? follow =
      if (mk rest stop).current ∈ follow then
        some ⟨([], type), ⟨⟨.identifier name, s⟩ :: rest, stop⟩, h⟩ else none := by
  obtain ⟨first, s', rest', hrow, -⟩ := following_fullType h name s rest stop
  have hend : (mk (lt ++ ⟨.identifier name, s⟩ :: rest) stop).EndsModifiers := by
    rw [hrow]
    exact .inr (.inr ⟨first, rfl⟩)
  have htype : Gives typeRef ⟨lt ++ ⟨.identifier name, s⟩ :: rest, stop⟩ type
      ⟨⟨.identifier name, s⟩ :: rest, stop⟩ := by
    cases h with | @mk ln ld full _ isName dimensions =>
    have hcurrent := current_dimensions dimensions (⟨.identifier name, s⟩ :: rest) stop
    have hdimensions := dimensions_eq dimensions (⟨.identifier name, s⟩ :: rest) stop (by simp)
    rw [List.append_assoc]
    refine @gives_typeRef [] ln _ stop _ _ _ .nil isName ?_ hdimensions
    rcases hcurrent with h | h <;> rw [h] <;> simp
  obtain ⟨hbehind, htype⟩ := htype.eq
  refine ⟨hbehind, ?_⟩
  rw [declarationHead?]
  simp [modifiers_eq_nil hend, stay, htype]

/-- A declaration of local variables of such a type. -/
theorem readsStatement_fullType {lt ls : List Lexeme} {type : TypeRef} {s : Span}
    {os : List Outline} (htype : IsFullType lt type)
    (hdeclarators : ReadsDeclarators [] type ls os) :
    ReadsStatement (lt ++ ls ++ [⟨.semicolon, s⟩]) os := by
  obtain ⟨name, s', ls, rfl, hnext, hdeclarators⟩ := hdeclarators
  have hrow (rest : List Lexeme) : lt ++ ⟨.identifier name, s'⟩ :: ls ++ [⟨.semicolon, s⟩] ++ rest =
      lt ++ ⟨.identifier name, s'⟩ :: (ls ++ ⟨.semicolon, s⟩ :: rest) := by simp
  refine ⟨fun rest stop => ?_, fun rest stop _ => ?_⟩
  · obtain ⟨first, s'', rest', hfirst, -⟩ := following_fullType htype name s'
      (ls ++ ⟨.semicolon, s⟩ :: rest) stop
    rw [hrow, hfirst]
    rfl
  · have hnext := hnext (⟨.semicolon, s⟩ :: rest) stop rfl
    obtain ⟨_, hhead⟩ := declarationHead?_fullType htype declaratorFollow name s'
      (ls ++ ⟨.semicolon, s⟩ :: rest) stop
    rw [if_pos hnext] at hhead
    obtain ⟨_, hdeclarators⟩ := (hdeclarators (⟨.semicolon, s⟩ :: rest) stop rfl).eq
    obtain ⟨first, s'', rest', hfirst, hcolon⟩ := following_fullType htype name s'
      (ls ++ ⟨.semicolon, s⟩ :: rest) stop
    -- an identifier in front of a colon would be a label
    have hstatement : (mk (lt ++ ⟨.identifier name, s'⟩ :: (ls ++ ⟨.semicolon, s⟩ :: rest))
        stop).statement = localOrExpression _ := by
      rw [hfirst]
      exact statement_eq_localOrExpression hcolon
    rw [hrow, Gives, hstatement, localOrExpression]
    simp [hhead, hdeclarators]

/-- The class around a value is read with the outlines of the value in their place. -/
theorem readsType_declaresLocal {before behind le : List Lexeme} {around : List Outline → Outline}
    {os : List Outline} (h : DeclaresLocal before behind around) (he : IsExpression false le os) :
    ReadsType (before ++ le ++ behind) [around os] := by
  cases h with
  | @mk lm lm' lr lp lt ms ms' result type className methodName name ps s s₁ s₂ s₃ s₄ s₅ s₆ s₇ s₈
      s₉ s₁₀ s₁₁ modifiers methodModifiers isResult parameters isType =>
  -- from the variable outwards: statement, block, method, type body, type
  have hdeclarators : ReadsDeclarators [] type
      (⟨.identifier name, s₇⟩ :: [] ++ (⟨.equal, s₈⟩ :: le)) _ :=
    readsDeclarators_last .nil (readsInitializer_expression he)
  have hstatement := readsStatement_fullType (s := s₉) isType hdeclarators
  have hstatements := (passesStatements_cons hstatement passesStatements_nil).readsFrom
  have hblock : ReadsBraces block (⟨.leftBrace, s₆⟩ :: _ ++ [⟨.rightBrace, s₁₀⟩])
      [.node .block s₆ _] := readsBraces_block hstatements
  have hmethod : ReadsMember
      (lm' ++ lr ++ ⟨.identifier methodName, s₃⟩ :: ⟨.leftParen, s₄⟩ :: lp ++
        ⟨.rightParen, s₅⟩ :: _)
      [.node (.methodDef methodName ms' result) s₃ (.node .parameters s₄ ps :: _)] :=
    readsMember_method methodModifiers isResult parameters (reads_methodBody_block hblock)
  have hmembers := readsFrom_members_cons hmethod readsFrom_members_nil
  have hbody : ReadsBraces typeBody (⟨.leftBrace, s₂⟩ :: _ ++ [⟨.rightBrace, s₁₁⟩])
      [.node .typeBody s₂ _] := readsBraces_typeBody hmembers
  have htype : ReadsType (lm ++ [⟨.keyword .class_, s⟩] ++ ⟨.identifier className, s₁⟩ :: _)
      [.node (.classDef className ms) (s.to s₁) _] := readsType_word modifiers .class_ hbody
  simpa using htype

/-- What an expression leaves are anonymous classes and nothing else. -/
theorem isAnonymousClass_of_isExpression {inside : Bool} {ls : List Lexeme} {os : List Outline}
    (h : IsExpression inside ls os) : ∀ o ∈ os, ∃ type, o.kind = .anonymousClass type := by
  induction h with
  | nil => simp
  | plain _ _ _ _ _ _ ih => exact ih
  | group _ _ _ _ ihInner ihRest => exact List.forall_mem_append.mpr ⟨ihInner, ihRest⟩
  | object _ _ _ _ ihArguments ihRest =>
    exact List.forall_mem_append.mpr ⟨ihArguments, ihRest⟩
  | anonymousClass _ _ _ _ ihArguments ihRest =>
    exact List.forall_mem_append.mpr ⟨ihArguments, List.forall_mem_cons.mpr ⟨⟨_, rfl⟩, ihRest⟩⟩
  | array _ _ _ _ ihSize ihRest => exact List.forall_mem_append.mpr ⟨ihSize, ihRest⟩
  | arrayOf _ _ _ _ ihElements ihRest => exact List.forall_mem_append.mpr ⟨ihElements, ihRest⟩

end Cursor

namespace Parser

open FieldShadow.Core

/-- The value of a variable is passed over up to the semicolon behind it. It causes no error, and
nothing of it is left but the anonymous classes that are created in it, below the variable: read
back, the tree is that of the class around the value with these outlines in it and no others. -/
theorem next_eq_of_expression {before behind le : List Lexeme} {around : List Outline → Outline}
    {os : List Outline} (h : DeclaresLocal before behind around) (he : IsExpression false le os)
    (stop : Span) :
    (ofLexemes (before ++ le ++ behind ++ [⟨.eof, stop⟩])).next.1 =
        .ok (.ofOutlines [around os]) ∧
      (SyntaxTree.ofOutlines [around os]).IsTreeOf [around os] ∧
      ∀ o ∈ os, ∃ type, o.kind = .anonymousClass type := by
  have htype := Cursor.readsType_declaresLocal h he
  have hunit :=
    Cursor.readsFrom_declarations_cons htype Cursor.readsFrom_declarations_nil [] stop rfl
  rw [List.append_nil, List.append_nil] at hunit
  obtain ⟨_, hunit⟩ := hunit.eq
  have hcursor : Cursor.ofLexemes (before ++ le ++ behind ++ [⟨.eof, stop⟩]) =
      ⟨before ++ le ++ behind, stop⟩ := by
    simp [Cursor.ofLexemes]
  refine ⟨?_, SyntaxTree.isTreeOf_ofOutlines _, Cursor.isAnonymousClass_of_isExpression he⟩
  rw [ofLexemes, hcursor]
  simp [next, hunit]

/-! ## A class around a value -/

/-- The tokens of `class C { void m() { T<A> v = ` and of `; } }`, with a value up to column 54. -/
def holderTokens : List Lexeme × List Lexeme :=
  ([⟨.keyword .class_, ⟨⟨1, 1⟩, ⟨1, 5⟩⟩⟩, ⟨.identifier "C", .at ⟨1, 7⟩⟩, ⟨.leftBrace, .at ⟨1, 9⟩⟩,
    ⟨.keyword .void, ⟨⟨1, 11⟩, ⟨1, 14⟩⟩⟩, ⟨.identifier "m", .at ⟨1, 16⟩⟩, ⟨.leftParen, .at ⟨1, 17⟩⟩,
    ⟨.rightParen, .at ⟨1, 18⟩⟩, ⟨.leftBrace, .at ⟨1, 20⟩⟩, ⟨.identifier "T", .at ⟨1, 22⟩⟩,
    ⟨.less, .at ⟨1, 23⟩⟩, ⟨.identifier "A", .at ⟨1, 24⟩⟩, ⟨.greater, .at ⟨1, 25⟩⟩,
    ⟨.identifier "v", .at ⟨1, 27⟩⟩, ⟨.equal, .at ⟨1, 29⟩⟩],
   [⟨.semicolon, .at ⟨1, 55⟩⟩, ⟨.rightBrace, .at ⟨1, 57⟩⟩, ⟨.rightBrace, .at ⟨1, 59⟩⟩])

/-- The outline of that class, when the value gives these outlines. -/
def holderOutline (os : List Outline) : Outline :=
  .node (.classDef "C" []) ⟨⟨1, 1⟩, ⟨1, 7⟩⟩ [.node .typeBody (.at ⟨1, 9⟩)
    [.node (.methodDef "m" [] .void) (.at ⟨1, 16⟩) [.node .parameters (.at ⟨1, 17⟩) [],
      .node .block (.at ⟨1, 20⟩) [.node (.variableDef "v" [] (.ofName "T")) (.at ⟨1, 27⟩) os]]]]

/-- These tokens are a class with one method that declares one local variable. -/
theorem declaresLocal_holder : DeclaresLocal holderTokens.1 holderTokens.2 holderOutline :=
  have htype : IsFullType _ (.ofName "T") :=
    .mk (.mk (@TypeArguments.some _ (.at ⟨1, 23⟩) (.at ⟨1, 25⟩)
      (@Angled.plain (.identifier "A") (.at ⟨1, 24⟩) _ rfl .nil)) .nil) .nil
  .mk .nil .nil .void .nil htype

/-- The tokens of `f(new B() { int y; }, x)`. -/
def callTokens : List Lexeme :=
  [⟨.identifier "f", .at ⟨1, 31⟩⟩, ⟨.leftParen, .at ⟨1, 32⟩⟩,
    ⟨.keyword .new, ⟨⟨1, 33⟩, ⟨1, 35⟩⟩⟩, ⟨.identifier "B", .at ⟨1, 37⟩⟩, ⟨.leftParen, .at ⟨1, 38⟩⟩,
    ⟨.rightParen, .at ⟨1, 39⟩⟩, ⟨.leftBrace, .at ⟨1, 41⟩⟩,
    ⟨.identifier "int", ⟨⟨1, 43⟩, ⟨1, 45⟩⟩⟩, ⟨.identifier "y", .at ⟨1, 47⟩⟩,
    ⟨.semicolon, .at ⟨1, 48⟩⟩, ⟨.rightBrace, .at ⟨1, 50⟩⟩, ⟨.comma, .at ⟨1, 51⟩⟩,
    ⟨.identifier "x", .at ⟨1, 53⟩⟩, ⟨.rightParen, .at ⟨1, 54⟩⟩]

/-- The class that is created there. -/
def callOutline : Outline :=
  .node (.anonymousClass (.ofName "B")) (.at ⟨1, 41⟩) [.node .typeBody (.at ⟨1, 41⟩)
    [.leaf (.variableDef "y" [] (.ofName "int")) (.at ⟨1, 47⟩)]]

/-- The body of the anonymous class is read from its tokens. -/
theorem reads_callBody : Cursor.Reads Cursor.typeBody Cursor.anything
    [⟨.leftBrace, .at ⟨1, 41⟩⟩, ⟨.identifier "int", ⟨⟨1, 43⟩, ⟨1, 45⟩⟩⟩,
      ⟨.identifier "y", .at ⟨1, 47⟩⟩, ⟨.semicolon, .at ⟨1, 48⟩⟩, ⟨.rightBrace, .at ⟨1, 50⟩⟩]
    (.node .typeBody (.at ⟨1, 41⟩) [.leaf (.variableDef "y" [] (.ofName "int")) (.at ⟨1, 47⟩)]) :=
  have hfield := Derives.fields .nil (.mk (.mk .nil) .nil) (.lastDeclarator .nil .noInitializer)
  have hmembers : Cursor.ReadsFrom Cursor.members (· = .rightBrace) _ _ :=
    Cursor.parses_of_derives (.members hfield .noMembers)
  Cursor.reads_typeBody hmembers (.at ⟨1, 41⟩) (.at ⟨1, 50⟩)

/-- The value is an expression with an anonymous class among its arguments. -/
theorem isExpression_call : IsExpression false callTokens [callOutline] :=
  have hhead : CreationHead [⟨.keyword .new, ⟨⟨1, 33⟩, ⟨1, 35⟩⟩⟩, ⟨.identifier "B", .at ⟨1, 37⟩⟩]
      "B" := .mk .none .nil (.mk .none .nil)
  have hx : IsExpression true [⟨.comma, .at ⟨1, 51⟩⟩, ⟨.identifier "x", .at ⟨1, 53⟩⟩] [] :=
    .plain (by decide) (by decide) (by decide) (by decide) (.inl rfl)
      (.plain (by decide) (by decide) (by decide) (by decide) (.inl rfl) .nil)
  have hnew := @IsExpression.anonymousClass _ _ _ _ _ _ (.at ⟨1, 38⟩) (.at ⟨1, 39⟩) _ _ _ _ hhead
    .nil reads_callBody hx
  .plain (by decide) (by decide) (by decide) (by decide) (.inr (by decide))
    (@IsExpression.group _ .leftParen .rightParen (.at ⟨1, 32⟩) (.at ⟨1, 54⟩) _ _ _ _ rfl hnew rfl
      .nil)

/-- The class with this value is read, and its tree has the anonymous class and no other node for
the value. -/
theorem next_eq_call :
    DeclaresLocal holderTokens.1 holderTokens.2 holderOutline ∧
      IsExpression false callTokens [callOutline] ∧
      (ofLexemes (holderTokens.1 ++ callTokens ++ holderTokens.2 ++ [⟨.eof, .at ⟨1, 60⟩⟩])).next.1 =
        .ok (.ofOutlines [holderOutline [callOutline]]) ∧
      (SyntaxTree.ofOutlines [holderOutline [callOutline]]).IsTreeOf
        [holderOutline [callOutline]] ∧
      ∀ o ∈ [callOutline], ∃ type, o.kind = .anonymousClass type :=
  ⟨declaresLocal_holder, isExpression_call,
    next_eq_of_expression declaresLocal_holder isExpression_call (.at ⟨1, 60⟩)⟩

/-- The tokens of `T::new`. -/
def constructorReference : List Lexeme :=
  [⟨.identifier "T", .at ⟨1, 31⟩⟩, ⟨.operator "::", ⟨⟨1, 32⟩, ⟨1, 33⟩⟩⟩,
    ⟨.keyword .new, ⟨⟨1, 34⟩, ⟨1, 36⟩⟩⟩]

/-- A reference to a constructor is taken for a creation, and no type stands behind its `new`. -/
theorem next_ne_constructorReference :
    DeclaresLocal holderTokens.1 holderTokens.2 holderOutline ∧ Balanced constructorReference ∧
      (∀ l ∈ constructorReference, l.token ≠ .semicolon ∧ l.token ≠ .comma) ∧
      constructorReference.map Lexeme.token =
        [.identifier "T", .operator "::", .keyword .new] ∧
      ∀ t, (ofLexemes (holderTokens.1 ++ constructorReference ++ holderTokens.2 ++
        [⟨.eof, .at ⟨1, 60⟩⟩])).next.1 ≠ .ok t := by
  refine ⟨declaresLocal_holder, ?_, by decide, rfl, fun t h => ?_⟩
  · exact .plain (by decide) (by decide) (by decide) (.plain (by decide) (by decide) (by decide)
      (.plain (by decide) (by decide) (by decide) .nil))
  · have hnone : (ofLexemes (holderTokens.1 ++ constructorReference ++ holderTokens.2 ++
        [⟨.eof, .at ⟨1, 60⟩⟩])).next.1.toOption.isNone := by decide +kernel
    rw [h] at hnone
    cases hnone

end Parser

end FieldShadow
