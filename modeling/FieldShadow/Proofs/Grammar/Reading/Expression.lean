import FieldShadow.Proofs.Grammar.Reading

/-!
# Expressions on known tokens

What the readers of expressions, creations and declarators do on the rows of the core grammar. An
expression has no end of its own, so it is put in front of a reading that goes well (`Passes`), at
any depth of brackets.
-/

namespace FieldShadow.Cursor

open FieldShadow.Core

variable {α : Type}

/-- A reader of lists goes through these tokens and adds these values in front of what it gives
behind them, if a token that `follow` holds of stands there. -/
def Passes (f : (c : Cursor) → Except SyntaxError (From c (List α))) (follow : Token → Prop)
    (ls : List Lexeme) (values : List α) : Prop :=
  ∀ rest stop others d, follow (mk rest stop).current → GivesFrom f ⟨rest, stop⟩ others d →
    GivesFrom f ⟨ls ++ rest, stop⟩ (values ++ others) d

/-! ## Expressions -/

/-- The tokens that an expression may be read up to. -/
def endsExpression (t : Token) : Prop :=
  t = .semicolon ∨ t = .comma ∨ t = .colon ∨ t = .rightParen

/-- An expression is passed at every depth of brackets and up to whatever terminators. -/
def PassesExpression (ls : List Lexeme) (os : List Outline) : Prop :=
  ∀ ts depth, (∀ t ∈ ts, endsExpression t) →
    Passes (fun c => c.expression ts depth) (· ≠ .leftBrace) ls os

/-- A token that ends no expression and opens or closes nothing is passed over. -/
theorem expression_cons {t : Token} {s : Span} {rest : List Lexeme} {stop : Span}
    {ts : List Token} {depth : Nat} {os : List Outline} {d : Cursor}
    (hts : ∀ t ∈ ts, endsExpression t) (h : isPlain t)
    (hrest : GivesFrom (fun c => c.expression ts depth) ⟨rest, stop⟩ os d) :
    GivesFrom (fun c => c.expression ts depth) ⟨⟨t, s⟩ :: rest, stop⟩ os d := by
  have hplain : t ≠ .eof ∧ t ≠ .keyword .new ∧ t.opens = false ∧ t.closes = false ∧
      ¬ endsExpression t := by
    cases t <;> simp_all [isPlain, Token.opens, Token.closes, endsExpression]
  obtain ⟨heof, hnew, hopens, hcloses, hends⟩ := hplain
  have hmem : t ∉ ts := fun hmem => hends (hts t hmem)
  obtain ⟨_, heq⟩ := hrest.eq
  rw [GivesFrom, expression]
  simp [heof, hnew, hopens, hcloses, hmem, heq]

theorem passesExpression_nil : PassesExpression [] [] :=
  fun _ _ _ _ _ _ _ _ hrest => hrest

/-- A token that is no bracket, no terminator and no `new` is passed. -/
theorem passesExpression_plain {t : Token} {s : Span} {ls : List Lexeme} {os : List Outline}
    (h : isPlain t) (hrest : PassesExpression ls os) : PassesExpression (⟨t, s⟩ :: ls) os :=
  fun ts depth hts _ _ _ _ hfollow hgives =>
    expression_cons hts h (hrest ts depth hts _ _ _ _ hfollow hgives)

/-- Brackets of one kind around an expression. -/
theorem passesExpression_group {t t' : Token} {s s' : Span} {ls ls' : List Lexeme}
    {os os' : List Outline} (hopens : t.opens) (hcloses : t'.closes)
    (hinner : PassesExpression ls os) (hrest : PassesExpression ls' os') :
    PassesExpression (⟨t, s⟩ :: ls ++ ⟨t', s'⟩ :: ls') (os ++ os') := by
  intro ts depth hts rest stop others d hfollow hgives
  have hopening : t ≠ .eof ∧ t ≠ .keyword .new ∧ t.closes = false ∧ ¬ endsExpression t := by
    cases t <;> simp_all [Token.opens, Token.closes, endsExpression]
  have hclosing : t' ≠ .eof ∧ t' ≠ .keyword .new ∧ t' ≠ .leftBrace ∧ t'.opens = false := by
    cases t' <;> simp_all [Token.opens, Token.closes]
  have hmem : t ∉ ts := fun hmem => hopening.2.2.2 (hts t hmem)
  -- the closing bracket brings the depth back to what it was
  have hclose : GivesFrom (fun c => c.expression ts (depth + 1))
      ⟨⟨t', s'⟩ :: (ls' ++ rest), stop⟩ (os' ++ others) d := by
    obtain ⟨_, heq⟩ := (hrest ts depth hts rest stop others d hfollow hgives).eq
    rw [GivesFrom, expression]
    simp [hclosing, hcloses, heq]
  have hbody := hinner ts (depth + 1) hts _ _ _ _ (by simpa using hclosing.2.2.1) hclose
  obtain ⟨_, heq⟩ := hbody.eq
  simp only [List.cons_append, List.append_assoc]
  rw [GivesFrom, expression]
  simp [hopening, hopens, hmem, heq]

/-- An expression is read up to the first terminator behind it. -/
theorem PassesExpression.readsFrom {ls : List Lexeme} {os : List Outline}
    (h : PassesExpression ls os) (ts : List Token) (hts : ∀ t ∈ ts, endsExpression t) :
    ReadsFrom (fun c => c.expression ts 0) (· ∈ ts) ls os := by
  intro rest stop hmem
  have hend : (mk rest stop).current ≠ .eof ∧ (mk rest stop).current ≠ .leftBrace := by
    rcases hts _ hmem with h | h | h | h <;> simp [h]
  -- with no bracket open the reader stays in front of a terminator
  have hstays : GivesFrom (fun c => c.expression ts 0) ⟨rest, stop⟩ [] ⟨rest, stop⟩ := by
    cases rest with
    | nil => exact absurd rfl hend.1
    | cons l rest =>
      obtain ⟨t, s⟩ := l
      have heof : t ≠ .eof := hend.1
      have hmem : t ∈ ts := hmem
      rw [GivesFrom, expression]
      simp [heof, hmem, stay]
  simpa using h ts 0 hts rest stop [] _ hend.2 hstays

/-- An expression in parentheses. -/
def ReadsArguments (ls : List Lexeme) (os : List Outline) : Prop :=
  ∃ s s' ls', ls = ⟨.leftParen, s⟩ :: ls' ++ [⟨.rightParen, s'⟩] ∧ PassesExpression ls' os

/-- Arguments are read whatever follows them. -/
theorem ReadsArguments.reads {ls : List Lexeme} {os : List Outline} (h : ReadsArguments ls os) :
    Reads arguments anything ls os := by
  intro rest stop _
  obtain ⟨s, s', ls', rfl, hinner⟩ := h
  have hinner := hinner.readsFrom [.rightParen] (by simp [endsExpression])
    (⟨.rightParen, s'⟩ :: rest) stop (by simp)
  obtain ⟨_, heq⟩ := hinner.eq
  simp only [List.cons_append, List.append_assoc, List.nil_append]
  rw [Gives, arguments]
  simp [heq]

/-- Arguments begin with a parenthesis. -/
theorem ReadsArguments.eq_cons {ls : List Lexeme} {os : List Outline} (h : ReadsArguments ls os) :
    ∃ s ls', ls = ⟨.leftParen, s⟩ :: ls' := by
  obtain ⟨s, s', ls', rfl, -⟩ := h
  exact ⟨s, _, rfl⟩

/-- The creation of an object without a body of its own. -/
theorem reads_creation {ln ls : List Lexeme} {name : String} {s : Span} {os : List Outline}
    (hname : IsName ln name) (harguments : ReadsArguments ls os) :
    Reads creation (· ≠ .leftBrace) (⟨.keyword .new, s⟩ :: ln ++ ls) os := by
  intro rest stop hfollow
  have htype : IsType ln (.ofName name) := by simpa using IsType.mk hname .nil
  obtain ⟨s', ls', hls⟩ := harguments.eq_cons
  obtain ⟨_, htype⟩ := (reads_typeRef htype (ls ++ rest) stop (by simp [hls, endsType])).eq
  obtain ⟨_, harguments⟩ := (harguments.reads rest stop trivial).eq
  have hless : (mk (ln ++ (ls ++ rest)) stop).current ≠ .less := by
    cases hname with | mk => simp
  have hparen : (mk (ls ++ rest) stop).current = .leftParen := by simp [hls]
  simp only [List.cons_append, List.append_assoc]
  rw [Gives, creation]
  simp [typeArguments?_eq hless, stay, htype, hparen, harguments, hfollow]

/-- The creation of an object of an anonymous class. -/
theorem reads_creation_body {ln ls lb : List Lexeme} {name : String} {s s' : Span} {o : Outline}
    {os : List Outline} (hname : IsName ln name) (harguments : ReadsArguments ls os)
    (hbody : Reads typeBody anything (⟨.leftBrace, s'⟩ :: lb) o) :
    Reads creation anything (⟨.keyword .new, s⟩ :: ln ++ ls ++ ⟨.leftBrace, s'⟩ :: lb)
      (os ++ [.node (.anonymousClass (.ofName name)) s' [o]]) := by
  intro rest stop _
  have htype : IsType ln (.ofName name) := by simpa using IsType.mk hname .nil
  obtain ⟨s'', ls', hls⟩ := harguments.eq_cons
  have htype := reads_typeRef htype (ls ++ ⟨.leftBrace, s'⟩ :: lb ++ rest) stop
    (by simp [hls, endsType])
  have harguments := harguments.reads (⟨.leftBrace, s'⟩ :: lb ++ rest) stop trivial
  have hbody := hbody rest stop trivial
  -- a name that is no generic type has no angle behind it
  have hless : (mk (ln ++ (ls ++ ⟨.leftBrace, s'⟩ :: (lb ++ rest))) stop).current ≠ .less := by
    cases hname with | mk => simp
  have hparen : (mk (ls ++ ⟨.leftBrace, s'⟩ :: (lb ++ rest)) stop).current = .leftParen := by
    simp [hls]
  simp only [List.cons_append, List.append_assoc] at htype harguments hbody ⊢
  -- each part is read up to where the next one begins
  obtain ⟨_, htype⟩ := htype.eq
  obtain ⟨_, harguments⟩ := harguments.eq
  obtain ⟨_, hbody⟩ := hbody.eq
  rw [Gives, creation]
  simp [typeArguments?_eq hless, stay, htype, hparen, harguments, hbody]

/-- A creation in front of an expression. -/
theorem passesExpression_creation {ls ls' : List Lexeme} {s : Span} {os os' : List Outline}
    {follow : Token → Prop} (h : Reads creation follow (⟨.keyword .new, s⟩ :: ls) os)
    (hnext : ∀ rest stop, (mk rest stop).current ≠ .leftBrace →
      follow (mk (ls' ++ rest) stop).current)
    (hrest : PassesExpression ls' os') :
    PassesExpression (⟨.keyword .new, s⟩ :: ls ++ ls') (os ++ os') := by
  intro ts depth hts rest stop others d hfollow hgives
  -- `new` is no terminator, so the whole creation is read at once
  have hmem : .keyword .new ∉ ts := fun hmem => by simpa [endsExpression] using hts _ hmem
  have hcreation := h (ls' ++ rest) stop (hnext rest stop hfollow)
  obtain ⟨_, hothers⟩ := (hrest ts depth hts rest stop others d hfollow hgives).eq
  simp only [List.cons_append, List.append_assoc] at hcreation ⊢
  obtain ⟨_, hcreation⟩ := hcreation.eq
  rw [GivesFrom, expression]
  simp [hmem, hcreation, hothers, Token.closes]

/-! ## Declarators -/

/-- Passes the initial value of a variable, if it has one. -/
def initializer (c : Cursor) : Except SyntaxError (From c (List Outline)) :=
  match c.accept? .equal with
  | some ⟨_, c₁, h₁⟩ => do
    let ⟨classes, c₂, h₂⟩ ← c₁.expression [.comma, .semicolon] 0
    pure ⟨classes, c₂, h₂.of_behind h₁⟩
  | none => pure (c.stay [])

/-- Declarators with their value as a reader of its own. -/
theorem declarators_eq (c : Cursor) (ms : List Modifier) (type : TypeRef) (name : String)
    (s : Span) : c.declarators ms type name s = (do
      let ⟨type', c₁, h₁⟩ := c.dimensions type
      let ⟨classes, c₂, h₂⟩ ← c₁.initializer
      let declared := Outline.node (.variableDef name ms type') s classes
      match c₂.accept? .comma with
      | some ⟨_, c₃, h₃⟩ =>
        let ⟨(name', s'), c₄, h₄⟩ ← c₃.name .variable
        let ⟨others, c₅, h₅⟩ ← c₄.declarators ms type name' s'
        return ⟨declared :: others, c₅, ((((h₅.trans_lt h₄).trans h₃).trans_le h₂).trans_le h₁).le⟩
      | none => return ⟨[declared], c₂, h₂.trans h₁⟩) := by
  rw [declarators]
  unfold initializer
  cases c.dimensions type with | mk type' c₁ h₁ =>
  dsimp only
  cases c₁.accept? .equal with
  | none => rfl
  | some r =>
    dsimp only
    cases r.rest.expression [.comma, .semicolon] 0 <;> rfl

/-- The tokens that end an initial value. -/
def endsDeclarator (t : Token) : Prop :=
  t = .comma ∨ t = .semicolon

/-- A row is an initial value or empty; either way a declarator may end behind it. -/
def ReadsInitializer (ls : List Lexeme) (os : List Outline) : Prop :=
  ReadsFrom initializer endsDeclarator ls os ∧ ∀ rest stop, endsDeclarator (mk rest stop).current →
    (mk (ls ++ rest) stop).current = .equal ∨ endsDeclarator (mk (ls ++ rest) stop).current

theorem readsInitializer_nil : ReadsInitializer [] [] := by
  refine ⟨?_, fun _ _ hfollow => .inr hfollow⟩
  intro rest stop hfollow
  have hequal : (mk rest stop).accept? .equal = none :=
    accept?_eq_none (by rcases hfollow with h | h <;> simp [h])
  rw [GivesFrom, List.nil_append, initializer, hequal]
  exact ⟨_, rfl, rfl, rfl⟩

/-- A value is passed behind its equals sign. -/
theorem readsInitializer_equal {ls : List Lexeme} {s : Span} {os : List Outline}
    (h : PassesExpression ls os) : ReadsInitializer (⟨.equal, s⟩ :: ls) os := by
  refine ⟨?_, fun _ _ _ => .inl rfl⟩
  intro rest stop hfollow
  have hvalue := h.readsFrom [.comma, .semicolon] (by simp [endsExpression]) rest stop
    (by simpa [endsDeclarator] using hfollow)
  obtain ⟨_, hvalue⟩ := hvalue.eq
  rw [GivesFrom, List.cons_append, initializer]
  simp [hvalue]

/-- A row of declarators, which a semicolon ends. -/
def ReadsDeclarators (ms : List Modifier) (type : TypeRef) (ls : List Lexeme)
    (os : List Outline) : Prop :=
  ∃ name s ls', ls = ⟨.identifier name, s⟩ :: ls' ∧
    (∀ rest stop, (mk rest stop).current = .semicolon →
      (mk (ls' ++ rest) stop).current ∈ declaratorFollow) ∧
    ReadsFrom (fun c => c.declarators ms type name s) (· = .semicolon) ls' os

/-- Behind the name of a declarator stand dimensions, an initial value, or its end. -/
theorem current_declarator {ld li : List Lexeme} {type type' : TypeRef} {os : List Outline}
    (hdimensions : Dimensions ld type type') (hinitializer : ReadsInitializer li os)
    {rest : List Lexeme} {stop : Span} (hfollow : endsDeclarator (mk rest stop).current) :
    (mk (ld ++ (li ++ rest)) stop).current ∈ declaratorFollow := by
  rcases current_dimensions hdimensions (li ++ rest) stop with h | h
  · simp [h, declaratorFollow]
  · rw [h]
    rcases hinitializer.2 rest stop hfollow with h | h | h <;> simp [h, declaratorFollow]

/-- What the reader of declarators does up to the end of the first. -/
theorem dimensions_initializer_eq {ld li : List Lexeme} {type type' : TypeRef} {os : List Outline}
    (hdimensions : Dimensions ld type type') (hinitializer : ReadsInitializer li os)
    (rest : List Lexeme) (stop : Span) (hfollow : endsDeclarator (mk rest stop).current) :
    (∃ h, (mk (ld ++ (li ++ rest)) stop).dimensions type = ⟨type', ⟨li ++ rest, stop⟩, h⟩) ∧
      ∃ h, (mk (li ++ rest) stop).initializer = .ok ⟨os, ⟨rest, stop⟩, h⟩ := by
  refine ⟨dimensions_eq hdimensions _ _ ?_, (hinitializer.1 rest stop hfollow).eq⟩
  rcases hinitializer.2 rest stop hfollow with h | h | h <;> simp [h]

/-- The last declarator is a variable with the classes of its value below it. -/
theorem readsDeclarators_last {ld li : List Lexeme} {ms : List Modifier} {type type' : TypeRef}
    {name : String} {s : Span} {os : List Outline} (hdimensions : Dimensions ld type type')
    (hinitializer : ReadsInitializer li os) :
    ReadsDeclarators ms type (⟨.identifier name, s⟩ :: ld ++ li)
      [.node (.variableDef name ms type') s os] := by
  refine ⟨name, s, ld ++ li, rfl, ?_, ?_⟩
  · intro rest stop hfollow
    rw [List.append_assoc]
    exact current_declarator hdimensions hinitializer (.inr hfollow)
  · intro rest stop hfollow
    obtain ⟨⟨_, hdimensions⟩, _, hinitializer⟩ :=
      dimensions_initializer_eq hdimensions hinitializer rest stop (.inr hfollow)
    have hcomma : (mk rest stop).accept? .comma = none := accept?_eq_none (by simp [hfollow])
    rw [List.append_assoc, GivesFrom, declarators_eq, hdimensions]
    simp [hinitializer, hcomma]

/-- A declarator in front of a comma is read with those behind it. -/
theorem readsDeclarators_next {ld li ls : List Lexeme} {ms : List Modifier} {type type' : TypeRef}
    {name : String} {s s' : Span} {os os' : List Outline} (hdimensions : Dimensions ld type type')
    (hinitializer : ReadsInitializer li os) (hrest : ReadsDeclarators ms type ls os') :
    ReadsDeclarators ms type (⟨.identifier name, s⟩ :: ld ++ li ++ ⟨.comma, s'⟩ :: ls)
      (.node (.variableDef name ms type') s os :: os') := by
  obtain ⟨name', s'', ls', rfl, -, hrest⟩ := hrest
  refine ⟨name, s, ld ++ (li ++ ⟨.comma, s'⟩ :: ⟨.identifier name', s''⟩ :: ls'), by simp, ?_, ?_⟩
  · intro rest stop hfollow
    simp only [List.append_assoc]
    exact current_declarator hdimensions hinitializer (.inl rfl)
  · intro rest stop hfollow
    -- the initial value of the first declarator ends at the comma
    obtain ⟨⟨_, hdimensions⟩, _, hinitializer⟩ := dimensions_initializer_eq hdimensions
      hinitializer (⟨.comma, s'⟩ :: ⟨.identifier name', s''⟩ :: (ls' ++ rest)) stop (.inl rfl)
    obtain ⟨_, hothers⟩ := (hrest rest stop hfollow).eq
    simp only [List.append_assoc, List.cons_append]
    rw [GivesFrom, declarators_eq, hdimensions]
    simp [hinitializer, hothers]

end FieldShadow.Cursor
