import FieldShadow.Proofs.Grammar.Reading.Expression

/-!
# Bodies and members on known tokens

What the readers of type bodies, members, enum constants and whole types do on the rows of the core
grammar. The modifiers in front of a member are read before it is known what the member is, so each
kind of member is first told apart by the tokens behind them.

A member begins with modifiers and then with a word that begins a type, with a name and a
parenthesis, or with the type of a method or field (`member_eq_memberDeclaration`). Neither of the
first two reads as the third, since a type is followed by a name. So for each kind of member the
tokens behind its modifiers settle which branch is taken, and the rest is the reading of its parts.
-/

namespace FieldShadow.Cursor

open FieldShadow.Core

/-! ## Bodies -/

/-- A row in braces that is read as one node. -/
def ReadsBraces (f : (c : Cursor) → Except SyntaxError (After c Outline)) (ls : List Lexeme)
    (os : List Outline) : Prop :=
  ∃ s ls' o, ls = ⟨.leftBrace, s⟩ :: ls' ∧ os = [o] ∧ Reads f anything ls o

/-- A node in braces is read from the tokens of its children between them. The children must end at
a closing brace, and they do, since nothing else may follow them. -/
theorem reads_braces {opening closing : Mark} (hopening : opening.token = .leftBrace)
    (hclosing : closing.token = .rightBrace) (kind : NodeKind)
    {inner : (c : Cursor) → Except SyntaxError (From c (List Outline))} {ls : List Lexeme}
    {os : List Outline} (h : ReadsFrom inner (· = .rightBrace) ls os) (s s' : Span) :
    Reads (braces opening closing kind inner) anything
      (⟨.leftBrace, s⟩ :: ls ++ [⟨.rightBrace, s'⟩]) (.node kind s os) := by
  intro rest stop _
  obtain ⟨_, heq⟩ := (h (⟨.rightBrace, s'⟩ :: rest) stop rfl).eq
  simp only [List.cons_append, List.append_assoc, List.nil_append]
  rw [Gives, braces]
  simp [-Mark.token, hopening, heq, hclosing]

/-- A block is read from its statements in braces. -/
theorem reads_block {ls : List Lexeme} {os : List Outline}
    (h : ReadsFrom statements (· = .rightBrace) ls os) (s s' : Span) :
    Reads block anything (⟨.leftBrace, s⟩ :: ls ++ [⟨.rightBrace, s'⟩]) (.node .block s os) := by
  rw [block_eq]
  exact reads_braces rfl rfl .block h s s'

/-- The body of a type is read from its members in braces. -/
theorem reads_typeBody {ls : List Lexeme} {os : List Outline}
    (h : ReadsFrom members (· = .rightBrace) ls os) (s s' : Span) :
    Reads typeBody anything (⟨.leftBrace, s⟩ :: ls ++ [⟨.rightBrace, s'⟩])
      (.node .typeBody s os) := by
  rw [typeBody_eq]
  exact reads_braces rfl rfl .typeBody h s s'

/-- The tokens of a block begin with a brace, which is how it is told from a semicolon. -/
theorem readsBraces_block {ls : List Lexeme} {s s' : Span} {os : List Outline}
    (h : ReadsFrom statements (· = .rightBrace) ls os) :
    ReadsBraces block (⟨.leftBrace, s⟩ :: ls ++ [⟨.rightBrace, s'⟩]) [.node .block s os] :=
  ⟨s, _, _, rfl, rfl, reads_block h s s'⟩

/-- The tokens of a body begin with a brace. -/
theorem readsBraces_typeBody {ls : List Lexeme} {s s' : Span} {os : List Outline}
    (h : ReadsFrom members (· = .rightBrace) ls os) :
    ReadsBraces typeBody (⟨.leftBrace, s⟩ :: ls ++ [⟨.rightBrace, s'⟩])
      [.node .typeBody s os] :=
  ⟨s, _, _, rfl, rfl, reads_typeBody h s s'⟩

/-- The tokens of the body of an enum begin with a brace too. -/
theorem readsBraces_enumBody {ls : List Lexeme} {s s' : Span} {os : List Outline}
    (h : ReadsFrom enumConstants (· = .rightBrace) ls os) :
    ReadsBraces enumBody (⟨.leftBrace, s⟩ :: ls ++ [⟨.rightBrace, s'⟩])
      [.node .typeBody s os] := by
  rw [enumBody_eq]
  exact ⟨s, _, _, rfl, rfl, reads_braces rfl rfl .typeBody h s s'⟩

/-- The creation of an object of an anonymous class in front of an expression. -/
theorem passesExpression_anonymousClass {ln ls lb ls' : List Lexeme} {name : String}
    {s s₁ s₂ : Span} {os ob os' : List Outline} (hname : IsName ln name)
    (harguments : ReadsArguments ls os) (hmembers : ReadsFrom members (· = .rightBrace) lb ob)
    (hrest : PassesExpression ls' os') :
    PassesExpression
      (⟨.keyword .new, s⟩ :: ln ++ ls ++ ⟨.leftBrace, s₁⟩ :: lb ++ ⟨.rightBrace, s₂⟩ :: ls')
      (os ++ .node (.anonymousClass (.ofName name)) s₁ [.node .typeBody s₁ ob] :: os') := by
  have hcreation :=
    reads_creation_body (s := s) hname harguments (reads_typeBody hmembers s₁ s₂)
  simpa using passesExpression_creation hcreation (fun _ _ _ => trivial) hrest

/-! ## Types -/

/-- A row is modifiers with a type declaration behind them. -/
def ReadsType (ls : List Lexeme) (os : List Outline) : Prop :=
  ∃ lm ms ld o, ls = lm ++ ld ∧ os = [o] ∧ Modifiers lm ms ∧
    (∀ rest stop, (mk (ld ++ rest) stop).startsType) ∧
    Reads (fun c => c.typeDeclaration ms) anything ld o

/-- A type that is no enum is read from its word, its name and its body. -/
theorem reads_typeDeclaration {lw ls : List Lexeme} {kind : String → List Modifier → NodeKind}
    {s : Span} {os : List Outline} (hword : TypeWord lw kind s) (hbody : ReadsBraces typeBody ls os)
    (ms : List Modifier) (name : String) (s' : Span) :
    Reads (fun c => c.typeDeclaration ms) anything (lw ++ ⟨.identifier name, s'⟩ :: ls)
      (.node (kind name ms) (s.to s') os) := by
  obtain ⟨sOpen, ls, o, rfl, rfl, hbody⟩ := hbody
  intro rest stop _
  have hheading := reads_typeHeading hword ms name s' (⟨.leftBrace, sOpen⟩ :: ls ++ rest) stop rfl
  have hbody := hbody rest stop trivial
  simp only [List.append_assoc, List.cons_append, List.nil_append] at hheading hbody ⊢
  obtain ⟨_, hheading⟩ := hheading.eq
  obtain ⟨_, hbody⟩ := hbody.eq
  rw [Gives, typeDeclaration]
  cases hword <;> simp_all

/-- The words of a type begin a type, whatever stands behind them. -/
theorem startsType_typeWord {lw : List Lexeme} {kind : String → List Modifier → NodeKind}
    {s : Span} (h : TypeWord lw kind s) (rest : List Lexeme) (stop : Span) :
    (mk (lw ++ rest) stop).startsType := by
  cases h <;> rfl

/-- A type is read with the modifiers in front of it. -/
theorem readsType_word {lm lw ls : List Lexeme} {ms : List Modifier}
    {kind : String → List Modifier → NodeKind} {name : String} {s s' : Span}
    {os : List Outline} (hmodifiers : Modifiers lm ms) (hword : TypeWord lw kind s)
    (hbody : ReadsBraces typeBody ls os) :
    ReadsType (lm ++ lw ++ ⟨.identifier name, s'⟩ :: ls) [.node (kind name ms) (s.to s') os] := by
  refine ⟨lm, ms, lw ++ ⟨.identifier name, s'⟩ :: ls, _, by simp, rfl, hmodifiers, ?_,
    reads_typeDeclaration hword hbody ms name s'⟩
  intro rest stop
  rw [List.append_assoc]
  exact startsType_typeWord hword _ stop

/-- An enum is read with the modifiers in front of it. -/
theorem readsType_enum {lm ls : List Lexeme} {ms : List Modifier} {name : String} {s s' : Span}
    {os : List Outline} (hmodifiers : Modifiers lm ms) (hbody : ReadsBraces enumBody ls os) :
    ReadsType (lm ++ ⟨.keyword .enum, s⟩ :: ⟨.identifier name, s'⟩ :: ls)
      [.node (.enumDef name ms) (s.to s') os] := by
  obtain ⟨sOpen, ls', o, rfl, rfl, hbody⟩ := hbody
  refine ⟨lm, ms, _, _, rfl, rfl, hmodifiers, fun _ _ => rfl, ?_⟩
  intro rest stop _
  have hheading := reads_enumHeading ms name s s' (⟨.leftBrace, sOpen⟩ :: ls' ++ rest) stop rfl
  have hbody := hbody rest stop trivial
  simp only [List.cons_append, List.nil_append] at hheading hbody ⊢
  obtain ⟨_, hheading⟩ := hheading.eq
  obtain ⟨_, hbody⟩ := hbody.eq
  rw [Gives, typeDeclaration]
  simp [hheading, hbody]

/-! ## Members -/

/-- A row is a member, and no brace that ends a body. -/
def ReadsMember (ls : List Lexeme) (os : List Outline) : Prop :=
  (∀ rest stop, (mk (ls ++ rest) stop).current ≠ .eof ∧
    (mk (ls ++ rest) stop).current ≠ .rightBrace) ∧ Reads member anything ls os

section

variable {lm : List Lexeme} {ms : List Modifier} {rest : List Lexeme} {stop : Span}

/-- What begins with modifiers and is not settled by them is a declaration: neither a static
initializer nor a block begins so. -/
theorem member_eq_memberDeclaration (h : Modifiers lm ms) (hend : (mk rest stop).EndsModifiers) :
    (mk (lm ++ rest) stop).member = (mk (lm ++ rest) stop).memberDeclaration := by
  have hstarts := startsDeclaration_modifiers h hend
  rw [member]
  split
  · next hview => exact absurd (current_of_view hview) (ne_of_startsDeclaration hstarts rfl)
  · next hview => exact absurd (current_of_view hview) (ne_of_startsDeclaration hstarts rfl)
  · next hview =>
    -- a `static` with a brace behind it would be an initializer
    rw [if_neg]
    rw [skip_of_view hview]
    exact ne_of_startsDeclaration (following_modifiers h hend (current_of_view hview)) rfl
  · rfl

/-- A member whose heading starts a type is that type. -/
theorem gives_member_type {o : Outline} {d : Cursor} (h : Modifiers lm ms)
    (hstarts : (mk rest stop).startsType)
    (hrest : Gives (fun c => c.typeDeclaration ms) ⟨rest, stop⟩ o d) :
    Gives member ⟨lm ++ rest, stop⟩ [o] d := by
  obtain ⟨_, hmodifiers⟩ := (givesFrom_modifiers h (.inl hstarts)).eq
  obtain ⟨_, hrest⟩ := hrest.eq
  rw [Gives, member_eq_memberDeclaration h (.inl hstarts), memberDeclaration]
  simp [hmodifiers, hstarts, hrest]

/-- A name in front of a parenthesis, with no type before it, is a constructor. -/
theorem gives_member_constructor {name : String} {s s' : Span} {o : Outline} {d : Cursor}
    (h : Modifiers lm ms) (hrest : Gives (fun c => c.constructor ms)
      ⟨⟨.identifier name, s⟩ :: ⟨.leftParen, s'⟩ :: rest, stop⟩ o d) :
    Gives member ⟨lm ++ ⟨.identifier name, s⟩ :: ⟨.leftParen, s'⟩ :: rest, stop⟩ [o] d := by
  have hend : (mk (⟨.identifier name, s⟩ :: ⟨.leftParen, s'⟩ :: rest) stop).EndsModifiers :=
    .inr (.inr ⟨name, rfl⟩)
  obtain ⟨_, hmodifiers⟩ := (givesFrom_modifiers h hend).eq
  obtain ⟨_, hrest⟩ := hrest.eq
  rw [Gives, member_eq_memberDeclaration h hend, memberDeclaration]
  simp [hmodifiers, startsType, typeArguments?, stay, hrest]

/-- A type in front of a name is a method or a row of fields; the token behind the name decides. -/
theorem gives_member_methodOrFields {lt : List Lexeme} {type : TypeRef} {name : String} {s : Span}
    {os : List Outline} {d : Cursor} (h : Modifiers lm ms) (hresult : IsResult lt type)
    (hrest : Gives (fun c => c.methodOrFields ms)
      ⟨lt ++ ⟨.identifier name, s⟩ :: rest, stop⟩ os d) :
    Gives member ⟨lm ++ (lt ++ ⟨.identifier name, s⟩ :: rest), stop⟩ os d := by
  obtain ⟨_, hrest⟩ := hrest.eq
  cases hresult with
  | @void sVoid =>
    have hend :
        (mk (⟨.keyword .void, sVoid⟩ :: ⟨.identifier name, s⟩ :: rest) stop).EndsModifiers :=
      .inr (.inl rfl)
    obtain ⟨_, hmodifiers⟩ := (givesFrom_modifiers h hend).eq
    simp only [List.cons_append, List.nil_append] at hrest ⊢
    rw [Gives, member_eq_memberDeclaration h hend, memberDeclaration]
    simp [hmodifiers, startsType, typeArguments?, stay, hrest]
  | type isType =>
    have hend := endsModifiers_isType isType (⟨.identifier name, s⟩ :: rest) stop
    have hfollowing := (following_isType isType name s rest stop).1
    obtain ⟨_, hmodifiers⟩ := (givesFrom_modifiers h hend).eq
    obtain ⟨first, sFirst, lt, rfl⟩ := exists_cons_of_isType isType
    rw [Gives, member_eq_memberDeclaration h hend, memberDeclaration]
    simp only [List.cons_append] at hmodifiers hrest hfollowing ⊢
    simp only [hmodifiers, bind_ok, startsType, current_cons, Bool.false_eq_true, if_false,
      typeArguments?, stay, reduceCtorEq]
    -- a name with parentheses behind it would be a constructor
    split
    · next hparen => exact absurd hparen hfollowing
    · simp [hrest]

end

/-- What starts like a declaration is read as one member, whatever stands behind it. -/
theorem readsMember_of_starts {ls : List Lexeme} {os : List Outline}
    (hstarts : ∀ rest stop, startsDeclaration (mk (ls ++ rest) stop).current)
    (h : Reads member anything ls os) : ReadsMember ls os :=
  ⟨fun rest stop => ⟨ne_of_startsDeclaration (hstarts rest stop) rfl,
    ne_of_startsDeclaration (hstarts rest stop) rfl⟩, h⟩

/-- A type stands as a member. -/
theorem readsMember_type {ls : List Lexeme} {os : List Outline} (h : ReadsType ls os) :
    ReadsMember ls os := by
  obtain ⟨lm, ms, ld, o, rfl, rfl, hmodifiers, hstarts, htype⟩ := h
  refine readsMember_of_starts (fun rest stop => ?_) (fun rest stop _ => ?_)
  · rw [List.append_assoc]
    exact startsDeclaration_modifiers hmodifiers (.inl (hstarts rest stop))
  · rw [List.append_assoc]
    exact gives_member_type hmodifiers (hstarts rest stop) (htype rest stop trivial)

/-- Fields are read up to the semicolon behind the last declarator. -/
theorem readsMember_fields {lm lt ls : List Lexeme} {ms : List Modifier} {type : TypeRef} {s : Span}
    {os : List Outline} (hmodifiers : Modifiers lm ms) (htype : IsType lt type)
    (hdeclarators : ReadsDeclarators ms type ls os) :
    ReadsMember (lm ++ lt ++ ls ++ [⟨.semicolon, s⟩]) os := by
  obtain ⟨name, s', ls, rfl, hnext, hdeclarators⟩ := hdeclarators
  refine readsMember_of_starts (fun rest stop => ?_) (fun rest stop _ => ?_)
  · simp only [List.append_assoc]
    exact startsDeclaration_modifiers hmodifiers (endsModifiers_isType htype _ _)
  · have hnext := hnext (⟨.semicolon, s⟩ :: rest) stop rfl
    -- parentheses behind the name would make a method of it
    have hparen : (mk (ls ++ ⟨.semicolon, s⟩ :: rest) stop).current ≠ .leftParen := by
      intro heq
      simp [heq, declaratorFollow] at hnext
    obtain ⟨_, hread⟩ := typeRef_isType htype name s' (ls ++ ⟨.semicolon, s⟩ :: rest) stop
    obtain ⟨_, hdeclarators⟩ := (hdeclarators (⟨.semicolon, s⟩ :: rest) stop rfl).eq
    simp only [List.append_assoc, List.cons_append, List.nil_append]
    refine gives_member_methodOrFields hmodifiers (.type htype) ?_
    rw [Gives, methodOrFields]
    simp [hread, hparen, hdeclarators]

/-- What stands behind the parameters of a method. -/
theorem reads_methodBody_semicolon {s : Span} : Reads methodBody anything [⟨.semicolon, s⟩] [] := by
  intro rest stop _
  rw [Gives, List.cons_append, List.nil_append, methodBody, methodClauses]
  simp [stay]

/-- The block of a method is read as its body. -/
theorem reads_methodBody_block {ls : List Lexeme} {os : List Outline}
    (h : ReadsBraces block ls os) : Reads methodBody anything ls os := by
  intro rest stop _
  obtain ⟨s, ls, o, rfl, rfl, h⟩ := h
  have h := h rest stop trivial
  rw [List.cons_append] at h ⊢
  obtain ⟨_, heq⟩ := h.eq
  rw [Gives, methodBody, methodClauses]
  simp [stay, heq]

/-- A method is read from its heading, its parameters and what it ends with. -/
theorem readsMember_method {lm lt lp ls : List Lexeme} {ms : List Modifier} {type : TypeRef}
    {name : String} {s s' s'' : Span} {ps os : List Outline} (hmodifiers : Modifiers lm ms)
    (hresult : IsResult lt type) (hparameters : Parameters lp ps)
    (hbody : Reads methodBody anything ls os) :
    ReadsMember
      (lm ++ lt ++ ⟨.identifier name, s⟩ :: ⟨.leftParen, s'⟩ :: lp ++ ⟨.rightParen, s''⟩ :: ls)
      [.node (.methodDef name ms type) s (.node .parameters s' ps :: os)] := by
  -- first that a member begins here, then what it is
  refine readsMember_of_starts (fun rest stop => ?_) (fun rest stop _ => ?_)
  · simp only [List.append_assoc]
    refine startsDeclaration_modifiers hmodifiers ?_
    cases hresult with
    | void => exact .inr (.inl rfl)
    | type isType => exact endsModifiers_isType isType _ _
  · have htype := reads_result hresult (⟨.identifier name, s⟩ :: ⟨.leftParen, s'⟩ ::
      (lp ++ ⟨.rightParen, s''⟩ :: (ls ++ rest))) stop (by simp [endsType])
    have hparameters := reads_parameters hparameters s' s'' (ls ++ rest) stop trivial
    simp only [List.append_assoc, List.cons_append, List.nil_append] at hparameters ⊢
    obtain ⟨_, htype⟩ := htype.eq
    obtain ⟨_, hparameters⟩ := hparameters.eq
    obtain ⟨_, hbody⟩ := (hbody rest stop trivial).eq
    refine gives_member_methodOrFields hmodifiers hresult ?_
    rw [Gives, methodOrFields]
    simp [htype, hparameters, hbody]

/-- A constructor is read from its name, its parameters and its block. -/
theorem readsMember_constructor {lm lp ls : List Lexeme} {ms : List Modifier} {name : String}
    {s s' s'' : Span} {ps os : List Outline} (hmodifiers : Modifiers lm ms)
    (hparameters : Parameters lp ps) (hbody : ReadsBraces block ls os) :
    ReadsMember (lm ++ ⟨.identifier name, s⟩ :: ⟨.leftParen, s'⟩ :: lp ++ ⟨.rightParen, s''⟩ :: ls)
      [.node (.constructorDef name ms) s (.node .parameters s' ps :: os)] := by
  obtain ⟨sOpen, ls, o, rfl, rfl, hbody⟩ := hbody
  refine readsMember_of_starts (fun rest stop => ?_) (fun rest stop _ => ?_)
  · simp only [List.append_assoc]
    exact startsDeclaration_modifiers hmodifiers (.inr (.inr ⟨name, rfl⟩))
  · have hparameters := reads_parameters hparameters s' s'' (⟨.leftBrace, sOpen⟩ :: ls ++ rest) stop
      trivial
    have hbody := hbody rest stop trivial
    have hheader := @header_eq ⟨⟨.leftBrace, sOpen⟩ :: (ls ++ rest), stop⟩ rfl
    simp only [List.append_assoc, List.cons_append, List.nil_append] at hparameters hbody ⊢
    obtain ⟨_, hparameters⟩ := hparameters.eq
    obtain ⟨_, hbody⟩ := hbody.eq
    refine gives_member_constructor hmodifiers ?_
    rw [Gives, constructor]
    simp [hparameters, hheader, stay, hbody]

/-- A block behind `static` is an initializer of the type. -/
theorem readsMember_staticInit {ls : List Lexeme} {s : Span} {os : List Outline}
    (h : ReadsBraces block ls os) :
    ReadsMember (⟨.modifier .static, s⟩ :: ls) [.node .staticInit s os] := by
  obtain ⟨sOpen, ls, o, rfl, rfl, h⟩ := h
  refine readsMember_of_starts (fun _ _ => rfl) (fun rest stop _ => ?_)
  have h := h rest stop trivial
  simp only [List.cons_append] at h ⊢
  obtain ⟨_, heq⟩ := h.eq
  rw [Gives, member]
  simp [heq]

/-- A bare block is an initializer of the objects, with the block below it. -/
theorem readsMember_instanceInit {ls : List Lexeme} {s s' : Span} {os : List Outline}
    (h : ReadsFrom statements (· = .rightBrace) ls os) :
    ReadsMember (⟨.leftBrace, s⟩ :: ls ++ [⟨.rightBrace, s'⟩])
      [.node .instanceInit s [.node .block s os]] := by
  refine ⟨fun _ _ => by simp, fun rest stop _ => ?_⟩
  have hblock := reads_block h s s' rest stop trivial
  simp only [List.append_assoc, List.cons_append, List.nil_append] at hblock ⊢
  obtain ⟨_, heq⟩ := hblock.eq
  rw [Gives, member]
  simp [heq]

theorem readsFrom_members_nil : ReadsFrom members (· = .rightBrace) [] [] := by
  intro rest stop hfollow
  obtain ⟨s, rest, rfl⟩ := eq_cons_of_current hfollow (by simp)
  rw [GivesFrom, List.nil_append, members]
  simp [stay]

/-- Members are read one after the other; the reader takes another one since a member never begins
with a closing brace. -/
theorem readsFrom_members_cons {ls ls' : List Lexeme} {os os' : List Outline}
    (hfirst : ReadsMember ls os) (hrest : ReadsFrom members (· = .rightBrace) ls' os') :
    ReadsFrom members (· = .rightBrace) (ls ++ ls') (os ++ os') := by
  intro rest stop hfollow
  obtain ⟨heof, hbrace⟩ := hfirst.1 (ls' ++ rest) stop
  obtain ⟨_, hfirst⟩ := (hfirst.2 (ls' ++ rest) stop trivial).eq
  obtain ⟨_, hrest⟩ := (hrest rest stop hfollow).eq
  rw [List.append_assoc, GivesFrom, members]
  split
  · next hview => exact absurd (current_of_view_stop hview) heof
  · next hview => exact absurd (current_of_view hview) hbrace
  · simp [hfirst, hrest]

/-! ## Enum constants -/

/-- The tokens that end an enum constant. -/
def endsConstant (t : Token) : Prop :=
  t = .comma ∨ t = .semicolon ∨ t = .rightBrace

/-- A row is what follows a constant in an enum. -/
def ReadsConstants (ls : List Lexeme) (os : List Outline) : Prop :=
  (∀ rest stop, (mk rest stop).current = .rightBrace →
    endsConstant (mk (ls ++ rest) stop).current) ∧ ReadsFrom enumConstants (· = .rightBrace) ls os

/-- A row is a part that may be left out. -/
def Optionally (P : List Lexeme → List Outline → Prop) (ls : List Lexeme) (os : List Outline) :
    Prop :=
  ls = [] ∧ os = [] ∨ P ls os

/-- Passes the arguments of an enum constant, if it has some. -/
def optionalArguments (c : Cursor) : Except SyntaxError (From c (List Outline)) :=
  if c.current = .leftParen then c.arguments.map After.toFrom else pure (c.stay [])

/-- Reads the body of an enum constant, if it has one. -/
def optionalBody (c : Cursor) : Except SyntaxError (From c (List Outline)) :=
  if c.current = .leftBrace then do
    let ⟨body, c₁, h₁⟩ ← c.typeBody
    pure ⟨[body], c₁, h₁.le⟩
  else pure (c.stay [])

/-- A constant with its optional parts as readers of their own, so that each of the two choices is
dealt with once. -/
theorem enumConstant_eq (c : Cursor) : c.enumConstant = (do
    let ⟨_, c₁, h₁⟩ ← c.modifiers
    let ⟨(name, s), c₂, h₂⟩ ← c₁.name .enumConstant
    let ⟨arguments, c₃, h₃⟩ ← c₂.optionalArguments
    let ⟨body, c₄, h₄⟩ ← c₃.optionalBody
    return ⟨.node (.enumConstant name) s (arguments ++ body), c₄,
      ((h₄.trans h₃).trans_lt h₂).trans_le h₁⟩) := by
  rw [enumConstant]
  unfold optionalArguments optionalBody
  simp only [ite_bind, bind_assoc, pure_bind]

/-- Arguments are read if a parenthesis stands there. -/
theorem optionalArguments_of {ls : List Lexeme} {os : List Outline}
    (h : Optionally ReadsArguments ls os) : ReadsFrom optionalArguments (· ≠ .leftParen) ls os := by
  intro rest stop hfollow
  rw [GivesFrom]
  rcases h with ⟨rfl, rfl⟩ | h
  · exact ⟨_, if_neg hfollow, rfl, rfl⟩
  · obtain ⟨s, ls', hls⟩ := h.eq_cons
    have hparen : (mk (ls ++ rest) stop).current = .leftParen := by simp [hls]
    obtain ⟨_, heq⟩ := (h.reads rest stop trivial).eq
    rw [optionalArguments, if_pos hparen, heq]
    exact ⟨_, rfl, rfl, rfl⟩

/-- A body is read if a brace stands there. -/
theorem optionalBody_of {ls : List Lexeme} {os : List Outline}
    (h : Optionally (ReadsBraces typeBody) ls os) :
    ReadsFrom optionalBody (· ≠ .leftBrace) ls os := by
  intro rest stop hfollow
  rw [GivesFrom]
  rcases h with ⟨rfl, rfl⟩ | ⟨s, ls, o, rfl, rfl, h⟩
  · exact ⟨_, if_neg hfollow, rfl, rfl⟩
  · obtain ⟨_, heq⟩ := (h rest stop trivial).eq
    have hbrace : (mk (⟨.leftBrace, s⟩ :: ls ++ rest) stop).current = .leftBrace := rfl
    rw [optionalBody, if_pos hbrace, heq]
    exact ⟨_, rfl, rfl, rfl⟩

/-- A row is an enum constant. -/
def ReadsConstant (ls : List Lexeme) (os : List Outline) : Prop :=
  ∃ name s ls' o, ls = ⟨.identifier name, s⟩ :: ls' ∧ os = [o] ∧
    Reads enumConstant endsConstant ls o

/-- A constant is read from its name, its arguments and its body. -/
theorem readsConstant_mk {ls ls' : List Lexeme} {name : String} {s : Span} {os os' : List Outline}
    (harguments : Optionally ReadsArguments ls os)
    (hbody : Optionally (ReadsBraces typeBody) ls' os') :
    ReadsConstant (⟨.identifier name, s⟩ :: ls ++ ls')
      [.node (.enumConstant name) s (os ++ os')] := by
  refine ⟨name, s, ls ++ ls', _, rfl, rfl, ?_⟩
  intro rest stop hfollow
  have hend : (mk rest stop).current ≠ .leftBrace ∧ (mk rest stop).current ≠ .leftParen := by
    rcases hfollow with h | h | h <;> simp [h]
  have hparen : (mk (ls' ++ rest) stop).current ≠ .leftParen := by
    rcases hbody with ⟨rfl, -⟩ | ⟨_, _, _, rfl, -⟩
    · exact hend.2
    · simp
  have hmodifiers := @modifiers_eq_nil ⟨⟨.identifier name, s⟩ :: (ls ++ (ls' ++ rest)), stop⟩
    (.inr (.inr ⟨name, rfl⟩))
  obtain ⟨_, harguments⟩ := (optionalArguments_of harguments (ls' ++ rest) stop hparen).eq
  obtain ⟨_, hbody⟩ := (optionalBody_of hbody rest stop hend.1).eq
  simp only [List.cons_append, List.append_assoc]
  rw [Gives, enumConstant_eq]
  simp [hmodifiers, stay, harguments, hbody]

theorem readsConstants_nil : ReadsConstants [] [] := by
  refine ⟨fun _ _ hfollow => .inr (.inr hfollow), ?_⟩
  intro rest stop hfollow
  obtain ⟨s, rest, rfl⟩ := eq_cons_of_current hfollow (by simp)
  rw [GivesFrom, List.nil_append, enumConstants]
  simp [stay]

/-- Behind a semicolon the members of the enum are read. -/
theorem readsConstants_members {ls : List Lexeme} {s : Span} {os : List Outline}
    (h : ReadsFrom members (· = .rightBrace) ls os) :
    ReadsConstants (⟨.semicolon, s⟩ :: ls) os := by
  refine ⟨fun _ _ _ => .inr (.inl rfl), ?_⟩
  intro rest stop hfollow
  obtain ⟨_, heq⟩ := (h rest stop hfollow).eq
  rw [GivesFrom, List.cons_append, enumConstants]
  simp [heq]

/-- A first constant and what follows it are the constants of the enum. -/
theorem readsFrom_enumConstants_cons {ls ls' : List Lexeme} {os os' : List Outline}
    (hfirst : ReadsConstant ls os) (hrest : ReadsConstants ls' os') :
    ReadsFrom enumConstants (· = .rightBrace) (ls ++ ls') (os ++ os') := by
  intro rest stop hfollow
  obtain ⟨name, s, ls, o, rfl, rfl, hfirst⟩ := hfirst
  -- a constant stops where the next one or the members begin
  have hfirst := hfirst (ls' ++ rest) stop (hrest.1 rest stop hfollow)
  obtain ⟨_, hrest⟩ := (hrest.2 rest stop hfollow).eq
  simp only [List.cons_append, List.append_assoc] at hfirst ⊢
  obtain ⟨_, hfirst⟩ := hfirst.eq
  rw [GivesFrom, enumConstants]
  simp [hfirst, hrest]

/-- Behind a comma the next constant is read. -/
theorem readsConstants_next {ls ls' : List Lexeme} {s : Span} {os os' : List Outline}
    (hnext : ReadsConstant ls os) (hrest : ReadsConstants ls' os') :
    ReadsConstants (⟨.comma, s⟩ :: ls ++ ls') (os ++ os') := by
  refine ⟨fun _ _ _ => .inl rfl, ?_⟩
  intro rest stop hfollow
  have hothers := readsFrom_enumConstants_cons hnext hrest rest stop hfollow
  simp only [List.cons_append, List.append_assoc] at hothers ⊢
  obtain ⟨_, heq⟩ := hothers.eq
  rw [GivesFrom, enumConstants]
  simp [heq]

end FieldShadow.Cursor
