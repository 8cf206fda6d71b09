import FieldShadow.Proofs.Grammar.Reading.Member

/-!
# Statements on known tokens

What the readers of statements, handlers and the groups of a `switch` do on the rows of the core
grammar. A row of statements stands in a block or in a group, so it is put in front of a reading of
either (`PassesStatements`).
-/

namespace FieldShadow.Cursor

open FieldShadow.Core

/-! ## Rows of statements -/

/-- The tokens that a statement may begin with. -/
def startsStatement : Token → Bool
  | .eof | .rightBrace | .keyword .case | .modifier .default | .keyword .else | .keyword .catch
  | .keyword .finally => false
  | _ => true

/-- The tokens that no statement goes on with. -/
def endsStatement (t : Token) : Prop :=
  t ≠ .keyword .else ∧ t ≠ .keyword .catch ∧ t ≠ .keyword .finally

/-- Tokens that begin a statement are none of those that do not, which settles each comparison that
a reader makes first. -/
theorem ne_of_startsStatement {t t' : Token} (h : startsStatement t)
    (h' : startsStatement t' = false) : t ≠ t' := by
  rintro rfl
  exact absurd h (by simp [h'])

/-- What begins a statement may stand behind one. -/
theorem endsStatement_of_starts {t : Token} (h : startsStatement t) : endsStatement t :=
  ⟨ne_of_startsStatement h rfl, ne_of_startsStatement h rfl, ne_of_startsStatement h rfl⟩

/-- A row is a statement. -/
def ReadsStatement (ls : List Lexeme) (os : List Outline) : Prop :=
  (∀ rest stop, startsStatement (mk (ls ++ rest) stop).current) ∧
    Reads statement endsStatement ls os

/-- A row of statements is passed in a block and in a group of a `switch`. -/
structure PassesStatements (ls : List Lexeme) (os : List Outline) : Prop where
  ends : ∀ rest stop, endsStatement (mk rest stop).current →
    endsStatement (mk (ls ++ rest) stop).current
  inBlock : Passes statements endsStatement ls os
  inGroups : Passes caseGroups endsStatement ls os

theorem passesStatements_nil : PassesStatements [] [] where
  ends _ _ h := h
  inBlock _ _ _ _ _ h := h
  inGroups _ _ _ _ _ h := h

/-- A statement in front of a row that is passed is passed with it. What may follow the statement is
what the row begins with or ends at. -/
theorem passesStatements_cons {ls ls' : List Lexeme} {os os' : List Outline}
    (hfirst : ReadsStatement ls os) (hrest : PassesStatements ls' os') :
    PassesStatements (ls ++ ls') (os ++ os') where
  ends rest stop _ := by
    rw [List.append_assoc]
    exact endsStatement_of_starts (hfirst.1 _ stop)
  inBlock rest stop others d hfollow hgives := by
    have hstarts := hfirst.1 (ls' ++ rest) stop
    obtain ⟨_, hstatement⟩ := (hfirst.2 (ls' ++ rest) stop (hrest.ends rest stop hfollow)).eq
    obtain ⟨_, hothers⟩ := (hrest.inBlock rest stop others d hfollow hgives).eq
    rw [List.append_assoc, GivesFrom, statements]
    split
    · next hview =>
      exact absurd (current_of_view_stop hview) (ne_of_startsStatement hstarts rfl)
    · next hview => exact absurd (current_of_view hview) (ne_of_startsStatement hstarts rfl)
    · simp [hstatement, hothers]
  inGroups rest stop others d hfollow hgives := by
    have hstarts := hfirst.1 (ls' ++ rest) stop
    obtain ⟨_, hstatement⟩ := (hfirst.2 (ls' ++ rest) stop (hrest.ends rest stop hfollow)).eq
    obtain ⟨_, hothers⟩ := (hrest.inGroups rest stop others d hfollow hgives).eq
    rw [List.append_assoc, GivesFrom, caseGroups]
    -- no statement begins with a label of the `switch` or with what ends it
    split
    · next hview =>
      exact absurd (current_of_view_stop hview) (ne_of_startsStatement hstarts rfl)
    · next hview => exact absurd (current_of_view hview) (ne_of_startsStatement hstarts rfl)
    · next hview => exact absurd (current_of_view hview) (ne_of_startsStatement hstarts rfl)
    · next hview => exact absurd (current_of_view hview) (ne_of_startsStatement hstarts rfl)
    · simp [hstatement, hothers]

/-- A row that is passed is read up to the brace that closes it. -/
theorem PassesStatements.readsFrom {ls : List Lexeme} {os : List Outline}
    (h : PassesStatements ls os) : ReadsFrom statements (· = .rightBrace) ls os := by
  intro rest stop hfollow
  obtain ⟨s, rest, rfl⟩ := eq_cons_of_current hfollow (by simp)
  have hend : GivesFrom statements ⟨⟨.rightBrace, s⟩ :: rest, stop⟩ []
      ⟨⟨.rightBrace, s⟩ :: rest, stop⟩ := by
    rw [GivesFrom, statements]
    simp [stay]
  simpa using h.inBlock _ stop [] _ (by simp [endsStatement]) hend

/-! ## Simple statements -/

/-- A block stands as a statement. -/
theorem reads_statement_block {ls : List Lexeme} {os : List Outline} (h : ReadsBraces block ls os) :
    Reads statement anything ls os := by
  intro rest stop _
  obtain ⟨s, ls, o, rfl, rfl, h⟩ := h
  have h := h rest stop trivial
  rw [List.cons_append] at h ⊢
  obtain ⟨_, heq⟩ := h.eq
  rw [Gives, statement]
  simp [heq]

/-- A block is a statement whatever follows it. -/
theorem readsStatement_block {ls : List Lexeme} {os : List Outline} (h : ReadsBraces block ls os) :
    ReadsStatement ls os := by
  refine ⟨fun rest stop => ?_, fun rest stop _ => reads_statement_block h rest stop trivial⟩
  obtain ⟨s, ls, o, rfl, -⟩ := h
  rfl

/-- A lone semicolon is a statement that leaves nothing. -/
theorem readsStatement_empty {s : Span} : ReadsStatement [⟨.semicolon, s⟩] [] := by
  refine ⟨fun _ _ => rfl, fun rest stop _ => ?_⟩
  rw [Gives, List.cons_append, List.nil_append, statement]
  simp

/-- A statement that begins with an identifier and has no label. -/
theorem statement_eq_localOrExpression {name : String} {s : Span} {rest : List Lexeme}
    {stop : Span} (h : (mk rest stop).current ≠ .colon) :
    (mk (⟨.identifier name, s⟩ :: rest) stop).statement =
      (mk (⟨.identifier name, s⟩ :: rest) stop).localOrExpression := by
  rw [statement]
  simp [accept?_eq_none h]

/-- A type in front of declarators is tried before an expression, and is taken since a name follows
it. -/
theorem readsStatement_locals {lt ls : List Lexeme} {type : TypeRef} {s : Span} {os : List Outline}
    (htype : IsType lt type) (hdeclarators : ReadsDeclarators [] type ls os) :
    ReadsStatement (lt ++ ls ++ [⟨.semicolon, s⟩]) os := by
  obtain ⟨name, s', ls, rfl, hnext, hdeclarators⟩ := hdeclarators
  refine ⟨fun rest stop => ?_, fun rest stop _ => ?_⟩
  · obtain ⟨first, sFirst, lt, rfl⟩ := exists_cons_of_isType htype
    rfl
  · have hnext := hnext (⟨.semicolon, s⟩ :: rest) stop rfl
    -- an identifier in front of a colon would be a label
    have hcolon := (following_isType htype name s' (ls ++ ⟨.semicolon, s⟩ :: rest) stop).2
    obtain ⟨_, hhead⟩ := declarationHead?_eq htype declaratorFollow name s'
      (ls ++ ⟨.semicolon, s⟩ :: rest) stop
    rw [if_pos hnext] at hhead
    obtain ⟨_, hdeclarators⟩ := (hdeclarators (⟨.semicolon, s⟩ :: rest) stop rfl).eq
    obtain ⟨first, sFirst, lt, rfl⟩ := exists_cons_of_isType htype
    simp only [List.append_assoc, List.cons_append, List.nil_append, following_cons]
      at hhead hcolon ⊢
    rw [Gives, statement_eq_localOrExpression hcolon, localOrExpression]
    simp [hhead, hdeclarators]

/-- A class in a block is read with its body. -/
theorem readsStatement_class {ls : List Lexeme} {name : String} {s s' : Span} {os : List Outline}
    (h : ReadsBraces typeBody ls os) :
    ReadsStatement (⟨.keyword .class_, s⟩ :: ⟨.identifier name, s'⟩ :: ls)
      [.node (.classDef name []) (s.to s') os] := by
  refine ⟨fun _ _ => rfl, fun rest stop _ => ?_⟩
  have htype := reads_typeDeclaration (@TypeWord.class_ s) h [] name s' rest stop trivial
  have hmodifiers := @modifiers_eq_nil
    ⟨⟨.keyword .class_, s⟩ :: ⟨.identifier name, s'⟩ :: (ls ++ rest), stop⟩ (.inl rfl)
  simp only [List.cons_append, List.nil_append] at htype ⊢
  obtain ⟨_, htype⟩ := htype.eq
  rw [Gives, statement]
  simp [hmodifiers, stay, startsType, htype]

/-- What is returned is passed as an expression up to the semicolon. -/
theorem readsStatement_return {ls : List Lexeme} {s s' : Span} {os : List Outline}
    (h : PassesExpression ls os) :
    ReadsStatement (⟨.keyword .return, s⟩ :: ls ++ [⟨.semicolon, s'⟩]) os := by
  refine ⟨fun _ _ => rfl, fun rest stop _ => ?_⟩
  obtain ⟨_, heq⟩ := (h.readsFrom [.semicolon] (by simp [endsExpression])
    (⟨.semicolon, s'⟩ :: rest) stop (by simp)).eq
  simp only [List.cons_append, List.append_assoc, List.nil_append]
  rw [Gives, statement]
  simp [heq]

/-- A name in front of arguments is tried as a type first, which fails at the parenthesis and is
taken back. -/
theorem readsStatement_call {ls : List Lexeme} {name : String} {s s' : Span} {os : List Outline}
    (hname : name ∉ TypeRef.primitiveNames) (h : ReadsArguments ls os) :
    ReadsStatement (⟨.identifier name, s⟩ :: ls ++ [⟨.semicolon, s'⟩]) os := by
  refine ⟨fun _ _ => rfl, fun rest stop _ => ?_⟩
  obtain ⟨sOpen, sClose, ls, rfl, hinner⟩ := h
  -- a call is an expression: the name, and then a group
  have hcall : PassesExpression
      (⟨.identifier name, s⟩ :: (⟨.leftParen, sOpen⟩ :: ls ++ [⟨.rightParen, sClose⟩]))
      (os ++ []) :=
    passesExpression_plain rfl (passesExpression_group rfl rfl hinner passesExpression_nil)
  have hcall := hcall.readsFrom [.semicolon] (by simp [endsExpression])
    (⟨.semicolon, s'⟩ :: rest) stop (by simp)
  simp only [List.cons_append, List.append_assoc, List.nil_append, List.append_nil] at hcall ⊢
  obtain ⟨_, heq⟩ := hcall.eq
  rw [Gives, statement_eq_localOrExpression (by simp), localOrExpression, declarationHead?_call]
  simp [primitiveStart, hname, heq]

/-! ## Conditions and loops -/

/-- A condition without an `else`; so none may follow the statement. -/
theorem readsStatement_if {ls ls' : List Lexeme} {s : Span} {os os' : List Outline}
    (hcondition : ReadsArguments ls os) (hyes : ReadsBraces block ls' os') :
    ReadsStatement (⟨.keyword .if, s⟩ :: ls ++ ls') (os ++ os') := by
  refine ⟨fun _ _ => rfl, fun rest stop hfollow => ?_⟩
  have helse : (mk rest stop).accept? (.keyword .else) = none := accept?_eq_none hfollow.1
  obtain ⟨_, hcondition⟩ := (hcondition.reads (ls' ++ rest) stop trivial).eq
  obtain ⟨_, hyes⟩ := (reads_statement_block hyes rest stop trivial).eq
  simp only [List.cons_append, List.append_assoc]
  rw [Gives, statement]
  simp [hcondition, hyes, helse]

/-- A condition with both blocks. -/
theorem readsStatement_ifElse {ls ls' ls'' : List Lexeme} {s s' : Span} {os os' os'' : List Outline}
    (hcondition : ReadsArguments ls os) (hyes : ReadsBraces block ls' os')
    (hno : ReadsBraces block ls'' os'') :
    ReadsStatement (⟨.keyword .if, s⟩ :: ls ++ ls' ++ ⟨.keyword .else, s'⟩ :: ls'')
      (os ++ os' ++ os'') := by
  refine ⟨fun _ _ => rfl, fun rest stop _ => ?_⟩
  obtain ⟨_, hcondition⟩ := (hcondition.reads (ls' ++ ⟨.keyword .else, s'⟩ :: (ls'' ++ rest)) stop
    trivial).eq
  obtain ⟨_, hyes⟩ := (reads_statement_block hyes (⟨.keyword .else, s'⟩ :: (ls'' ++ rest)) stop
    trivial).eq
  obtain ⟨_, hno⟩ := (reads_statement_block hno rest stop trivial).eq
  simp only [List.cons_append, List.append_assoc]
  rw [Gives, statement]
  simp [hcondition, hyes, hno]

/-- A loop with its condition in front. -/
theorem readsStatement_while {ls ls' : List Lexeme} {s : Span} {os os' : List Outline}
    (hcondition : ReadsArguments ls os) (hbody : ReadsBraces block ls' os') :
    ReadsStatement (⟨.keyword .while, s⟩ :: ls ++ ls') (os ++ os') := by
  refine ⟨fun _ _ => rfl, fun rest stop _ => ?_⟩
  obtain ⟨_, hcondition⟩ := (hcondition.reads (ls' ++ rest) stop trivial).eq
  obtain ⟨_, hbody⟩ := (reads_statement_block hbody rest stop trivial).eq
  simp only [List.cons_append, List.append_assoc]
  rw [Gives, statement]
  simp [hcondition, hbody]

/-- A loop with its condition behind its block. -/
theorem readsStatement_doWhile {ls ls' : List Lexeme} {s s' s'' : Span} {os os' : List Outline}
    (hbody : ReadsBraces block ls os) (hcondition : ReadsArguments ls' os') :
    ReadsStatement
      (⟨.keyword .do, s⟩ :: ls ++ ⟨.keyword .while, s'⟩ :: ls' ++ [⟨.semicolon, s''⟩])
      (os ++ os') := by
  refine ⟨fun _ _ => rfl, fun rest stop _ => ?_⟩
  obtain ⟨_, hbody⟩ := (reads_statement_block hbody
    (⟨.keyword .while, s'⟩ :: (ls' ++ ⟨.semicolon, s''⟩ :: rest)) stop trivial).eq
  obtain ⟨_, hcondition⟩ := (hcondition.reads (⟨.semicolon, s''⟩ :: rest) stop trivial).eq
  simp only [List.cons_append, List.append_assoc, List.nil_append]
  rw [Gives, statement]
  simp [hbody, hcondition]

/-- A `for` statement, whatever stands between its parentheses. -/
theorem readsStatement_for {lc ls : List Lexeme} {s s' s'' : Span} {oc os : List Outline}
    (hclauses : Reads (fun c => c.forClauses s') (· = .rightParen) lc oc)
    (hbody : ReadsBraces block ls os) :
    ReadsStatement (⟨.keyword .for, s⟩ :: ⟨.leftParen, s'⟩ :: lc ++ ⟨.rightParen, s''⟩ :: ls)
      (oc ++ os) := by
  refine ⟨fun _ _ => rfl, fun rest stop _ => ?_⟩
  obtain ⟨_, hclauses⟩ := (hclauses (⟨.rightParen, s''⟩ :: (ls ++ rest)) stop rfl).eq
  obtain ⟨_, hbody⟩ := (reads_statement_block hbody rest stop trivial).eq
  simp only [List.cons_append, List.append_assoc]
  rw [Gives, statement]
  simp only [ne_eq, reduceCtorEq, not_false_eq_true, view_cons]
  rw [forRest]
  simp [hclauses, hbody]

/-- The clauses of a loop over a collection: the colon behind the name tells them from others. -/
theorem reads_forClauses_each {lt lc : List Lexeme} {type : TypeRef} {name : String}
    {s s' s'' : Span} {oc : List Outline} (htype : IsType lt type)
    (hcollection : PassesExpression lc oc) :
    Reads (fun c => c.forClauses s) (· = .rightParen)
      (lt ++ ⟨.identifier name, s'⟩ :: ⟨.colon, s''⟩ :: lc)
      [.node .forEachClause s (.leaf (.variableDef name [] type) s' :: oc)] := by
  intro rest stop hfollow
  obtain ⟨_, hhead⟩ := declarationHead?_eq htype [.colon] name s'
    (⟨.colon, s''⟩ :: (lc ++ rest)) stop
  obtain ⟨_, hcollection⟩ := (hcollection.readsFrom [.rightParen] (by simp [endsExpression]) rest
    stop (by simp [hfollow])).eq
  simp only [List.cons_append, List.append_assoc]
  rw [Gives, forClauses, hhead]
  simp [hcollection]

/-- The three clauses of a loop, each up to the sign that ends it. -/
theorem reads_forClauses_loop {lt ld lc lu : List Lexeme} {type : TypeRef} {s s' s'' : Span}
    {od oc ou : List Outline} (htype : IsType lt type)
    (hdeclarators : ReadsDeclarators [] type ld od) (hcondition : PassesExpression lc oc)
    (hupdate : PassesExpression lu ou) :
    Reads (fun c => c.forClauses s) (· = .rightParen)
      (lt ++ ld ++ ⟨.semicolon, s'⟩ :: lc ++ ⟨.semicolon, s''⟩ :: lu)
      (.node .forInit s od :: oc ++ ou) := by
  intro rest stop hfollow
  obtain ⟨name, sName, ld, rfl, hnext, hdeclarators⟩ := hdeclarators
  have hnext := hnext (⟨.semicolon, s'⟩ :: (lc ++ ⟨.semicolon, s''⟩ :: (lu ++ rest))) stop rfl
  -- what stands behind the name tells this loop from one over a collection
  have hcolon : (mk (ld ++ ⟨.semicolon, s'⟩ :: (lc ++ ⟨.semicolon, s''⟩ :: (lu ++ rest)))
      stop).current ∉ [.colon] := by
    intro heq
    rw [List.mem_singleton] at heq
    simp [heq, declaratorFollow] at hnext
  obtain ⟨_, heach⟩ := declarationHead?_eq htype [.colon] name sName
    (ld ++ ⟨.semicolon, s'⟩ :: (lc ++ ⟨.semicolon, s''⟩ :: (lu ++ rest))) stop
  obtain ⟨_, hhead⟩ := declarationHead?_eq htype declaratorFollow name sName
    (ld ++ ⟨.semicolon, s'⟩ :: (lc ++ ⟨.semicolon, s''⟩ :: (lu ++ rest))) stop
  rw [if_neg hcolon] at heach
  rw [if_pos hnext] at hhead
  obtain ⟨_, hdeclarators⟩ := (hdeclarators
    (⟨.semicolon, s'⟩ :: (lc ++ ⟨.semicolon, s''⟩ :: (lu ++ rest))) stop rfl).eq
  obtain ⟨_, hcondition⟩ := (hcondition.readsFrom [.semicolon] (by simp [endsExpression])
    (⟨.semicolon, s''⟩ :: (lu ++ rest)) stop (by simp)).eq
  obtain ⟨_, hupdate⟩ := (hupdate.readsFrom [.rightParen] (by simp [endsExpression]) rest stop
    (by simp [hfollow])).eq
  simp only [List.cons_append, List.append_assoc]
  rw [Gives, forClauses, heach, forInitializer, hhead]
  simp [hdeclarators, hcondition, hupdate]

/-- A loop over a collection, with its block. -/
theorem readsStatement_forEach {lt lc ls : List Lexeme} {type : TypeRef} {name : String}
    {s s₁ s₂ s₃ s₄ : Span} {oc os : List Outline} (htype : IsType lt type)
    (hcollection : PassesExpression lc oc) (hbody : ReadsBraces block ls os) :
    ReadsStatement
      (⟨.keyword .for, s⟩ :: ⟨.leftParen, s₁⟩ :: lt ++ ⟨.identifier name, s₂⟩ ::
        ⟨.colon, s₃⟩ :: lc ++ ⟨.rightParen, s₄⟩ :: ls)
      (.node .forEachClause s₁ (.leaf (.variableDef name [] type) s₂ :: oc) :: os) := by
  simpa using readsStatement_for (reads_forClauses_each htype hcollection) hbody

/-- A loop with three clauses, with its block. -/
theorem readsStatement_forLoop {lt ld lc lu ls : List Lexeme} {type : TypeRef}
    {s s₁ s₂ s₃ s₄ : Span} {od oc ou os : List Outline} (htype : IsType lt type)
    (hdeclarators : ReadsDeclarators [] type ld od) (hcondition : PassesExpression lc oc)
    (hupdate : PassesExpression lu ou) (hbody : ReadsBraces block ls os) :
    ReadsStatement
      (⟨.keyword .for, s⟩ :: ⟨.leftParen, s₁⟩ :: lt ++ ld ++ ⟨.semicolon, s₂⟩ :: lc ++
        ⟨.semicolon, s₃⟩ :: lu ++ ⟨.rightParen, s₄⟩ :: ls)
      (.node .forInit s₁ od :: oc ++ ou ++ os) := by
  simpa using
    readsStatement_for (reads_forClauses_loop htype hdeclarators hcondition hupdate) hbody

/-! ## Handlers -/

theorem readsFrom_catches_nil : ReadsFrom catches (· ≠ .keyword .catch) [] [] := by
  intro rest stop hfollow
  rw [GivesFrom, List.nil_append, catches, accept?_eq_none hfollow]
  exact ⟨_, rfl, rfl, rfl⟩

/-- A handler in front of others is read with them. -/
theorem readsFrom_catches_cons {lt ls ls' : List Lexeme} {type : TypeRef} {name : String}
    {s s₁ s₂ s₃ : Span} {os os' : List Outline} (htype : IsType lt type)
    (hbody : ReadsBraces block ls os) (hrest : ReadsFrom catches (· ≠ .keyword .catch) ls' os') :
    ReadsFrom catches (· ≠ .keyword .catch)
      (⟨.keyword .catch, s⟩ :: ⟨.leftParen, s₁⟩ :: lt ++ ⟨.identifier name, s₂⟩ ::
        ⟨.rightParen, s₃⟩ :: ls ++ ls')
      (.node .catchClause s (.leaf (.parameterDef name [] type) s₂ :: os) :: os') := by
  intro rest stop hfollow
  obtain ⟨sOpen, lb, o, rfl, rfl, hbody⟩ := hbody
  have hparameter := reads_catchParameter htype name s₁ s₂ s₃
    (⟨.leftBrace, sOpen⟩ :: (lb ++ (ls' ++ rest))) stop trivial
  have hbody := hbody (ls' ++ rest) stop trivial
  obtain ⟨_, hrest⟩ := (hrest rest stop hfollow).eq
  simp only [List.cons_append, List.append_assoc, List.nil_append] at hparameter hbody ⊢
  obtain ⟨_, hparameter⟩ := hparameter.eq
  obtain ⟨_, hbody⟩ := hbody.eq
  rw [GivesFrom, catches]
  simp [hparameter, hbody, hrest]

/-- A row is the end of a `try` statement. -/
def ReadsFinally (ls : List Lexeme) (os : List Outline) : Prop :=
  ∃ s ls', ls = ⟨.keyword .finally, s⟩ :: ls' ∧ ReadsBraces block ls' os

/-- A block with its handlers and the block that always runs, if there is one. -/
theorem readsStatement_try {ls ls' ls'' : List Lexeme} {s : Span} {os os' os'' : List Outline}
    (hbody : ReadsBraces block ls os) (hcatches : ReadsFrom catches (· ≠ .keyword .catch) ls' os')
    (hlast : Optionally ReadsFinally ls'' os'') :
    ReadsStatement (⟨.keyword .try, s⟩ :: ls ++ ls' ++ ls'') (os ++ os' ++ os'') := by
  refine ⟨fun _ _ => rfl, fun rest stop hfollow => ?_⟩
  obtain ⟨sOpen, ls, o, rfl, rfl, hbody⟩ := hbody
  have hbody := hbody (ls' ++ (ls'' ++ rest)) stop trivial
  rw [List.cons_append] at hbody
  obtain ⟨_, hbody⟩ := hbody.eq
  rcases hlast with ⟨rfl, rfl⟩ | ⟨sLast, lf, rfl, hlast⟩
  -- the handlers end at `finally` or where the statement does
  · have hfinally : (mk rest stop).accept? (.keyword .finally) = none :=
      accept?_eq_none hfollow.2.2
    obtain ⟨_, hcatches⟩ := (hcatches rest stop hfollow.2.1).eq
    simp only [List.cons_append, List.append_assoc, List.nil_append] at hbody ⊢
    rw [Gives, statement]
    simp only [ne_eq, reduceCtorEq, not_false_eq_true, view_cons]
    rw [tryRest]
    simp [stay, hbody, hcatches, hfinally]
  · obtain ⟨sBrace, lf, o', rfl, rfl, hlast⟩ := hlast
    have hcatches := hcatches
      (⟨.keyword .finally, sLast⟩ :: (⟨.leftBrace, sBrace⟩ :: lf ++ rest)) stop (by simp)
    have hlast := hlast rest stop trivial
    simp only [List.cons_append] at hcatches hlast
    obtain ⟨_, hcatches⟩ := hcatches.eq
    obtain ⟨_, hlast⟩ := hlast.eq
    simp only [List.cons_append, List.append_assoc] at hbody ⊢
    rw [Gives, statement]
    simp only [ne_eq, reduceCtorEq, not_false_eq_true, view_cons]
    rw [tryRest]
    simp [stay, hbody, hcatches, hlast]

/-! ## Groups of a `switch` -/

/-- A row is the groups of a `switch`. -/
def ReadsGroups (ls : List Lexeme) (os : List Outline) : Prop :=
  (∀ rest stop, (mk rest stop).current = .rightBrace →
    endsStatement (mk (ls ++ rest) stop).current) ∧ ReadsFrom caseGroups (· = .rightBrace) ls os

theorem readsGroups_nil : ReadsGroups [] [] := by
  refine ⟨fun rest stop hfollow => by simp [hfollow, endsStatement], fun rest stop hfollow => ?_⟩
  obtain ⟨s, rest, rfl⟩ := eq_cons_of_current hfollow (by simp)
  rw [GivesFrom, List.nil_append, caseGroups]
  simp [stay]

/-- A group with a label is read with what follows it. -/
theorem readsGroups_case {lc ls ls' : List Lexeme} {s s' : Span} {oc os os' : List Outline}
    (hlabel : PassesExpression lc oc) (hstatements : PassesStatements ls os)
    (hrest : ReadsGroups ls' os') :
    ReadsGroups (⟨.keyword .case, s⟩ :: lc ++ ⟨.colon, s'⟩ :: ls ++ ls') (oc ++ os ++ os') := by
  refine ⟨fun _ _ _ => by simp [endsStatement], fun rest stop hfollow => ?_⟩
  obtain ⟨_, hlabel⟩ := (hlabel.readsFrom [.colon] (by simp [endsExpression])
    (⟨.colon, s'⟩ :: (ls ++ (ls' ++ rest))) stop (by simp)).eq
  -- the statements of a group are passed by the reader of groups itself
  obtain ⟨_, hothers⟩ := (hstatements.inGroups (ls' ++ rest) stop os' _
    (hrest.1 rest stop hfollow) (hrest.2 rest stop hfollow)).eq
  simp only [List.cons_append, List.append_assoc]
  rw [GivesFrom, caseGroups]
  simp [hlabel, hothers]

/-- The group without a label is read with what follows it. -/
theorem readsGroups_default {ls ls' : List Lexeme} {s s' : Span} {os os' : List Outline}
    (hstatements : PassesStatements ls os) (hrest : ReadsGroups ls' os') :
    ReadsGroups (⟨.modifier .default, s⟩ :: ⟨.colon, s'⟩ :: ls ++ ls') (os ++ os') := by
  refine ⟨fun _ _ _ => by simp [endsStatement], fun rest stop hfollow => ?_⟩
  obtain ⟨_, hothers⟩ := (hstatements.inGroups (ls' ++ rest) stop os' _
    (hrest.1 rest stop hfollow) (hrest.2 rest stop hfollow)).eq
  simp only [List.cons_append, List.append_assoc]
  rw [GivesFrom, caseGroups]
  simp [hothers]

/-- Groups in braces are read as one block. -/
theorem reads_switchBody {ls : List Lexeme} {os : List Outline}
    (h : ReadsFrom caseGroups (· = .rightBrace) ls os) (s s' : Span) :
    Reads switchBody anything (⟨.leftBrace, s⟩ :: ls ++ [⟨.rightBrace, s'⟩])
      (.node .block s os) := by
  rw [switchBody_eq]
  exact reads_braces rfl rfl .block h s s'

/-- A subject in parentheses in front of groups. -/
theorem readsStatement_switch {ls ls' : List Lexeme} {s s' s'' : Span} {os os' : List Outline}
    (hsubject : ReadsArguments ls os) (hgroups : ReadsGroups ls' os') :
    ReadsStatement
      (⟨.keyword .switch, s⟩ :: ls ++ ⟨.leftBrace, s'⟩ :: ls' ++ [⟨.rightBrace, s''⟩])
      (os ++ [.node .block s' os']) := by
  refine ⟨fun _ _ => rfl, fun rest stop _ => ?_⟩
  have hbody := reads_switchBody hgroups.2 s' s'' rest stop trivial
  simp only [List.cons_append, List.append_assoc, List.nil_append] at hbody
  obtain ⟨_, hbody⟩ := hbody.eq
  obtain ⟨_, hsubject⟩ := (hsubject.reads
    (⟨.leftBrace, s'⟩ :: (ls' ++ ⟨.rightBrace, s''⟩ :: rest)) stop trivial).eq
  simp only [List.cons_append, List.append_assoc, List.nil_append]
  rw [Gives, statement]
  simp [hsubject, hbody]

end FieldShadow.Cursor
