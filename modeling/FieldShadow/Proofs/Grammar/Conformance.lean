import FieldShadow.Proofs.Grammar.Forms
import FieldShadow.Proofs.Grammar.Rows
import FieldShadow.Proofs.SyntaxTree.Schema

/-!
# What the grammar builds

Every reader of the grammar gives outlines of the kinds that may stand where it is called, and all
of them conform to the schema of syntax trees. So every tree that is read from some tokens holds at
every node what it may (`Parser.conforms_of_next`).

## Shape of the argument

Readers give rows of outlines, so what is shown of them is a statement about rows: all of them are
of kinds that may stand there, and conform below (`Cursor.AllAre`). Rows are put together by
appending (`allAre_append`) and weakened where a narrower kind is needed than the caller asks for
(`AllAre.imp`, `AllAre.toStatementParts`).

Bodies, blocks and expressions come back to themselves. They are proved together for the cursors
with fewer than `n` tokens (`conformsBelow`); a reader in the middle of the induction has all others
for what is left of the tokens, which is less.
-/

namespace FieldShadow

namespace Cursor

open Outline

/-! ## Rows of outlines -/

/-- Whether all outlines of a row are of such a kind and conform wherever they stand. -/
def AllAre (p : NodeKind → Prop) (outlines : List Outline) : Prop :=
  ∀ o ∈ outlines, o.Is p

theorem allAre_nil (p : NodeKind → Prop) : AllAre p [] := by
  simp [AllAre]

/-- A row is of some kinds exactly when its first outline and the rest are. -/
theorem allAre_cons {p : NodeKind → Prop} {o : Outline} {outlines : List Outline} :
    AllAre p (o :: outlines) ↔ o.Is p ∧ AllAre p outlines :=
  List.forall_mem_cons

/-- Rows behind each other are of some kinds exactly when both are, so that readers that append what
they read are dealt with part by part. -/
theorem allAre_append {p : NodeKind → Prop} {outlines others : List Outline} :
    AllAre p (outlines ++ others) ↔ AllAre p outlines ∧ AllAre p others :=
  List.forall_mem_append

/-- Kinds may be taken for more kinds; that the outlines conform does not depend on them. -/
theorem AllAre.imp {p q : NodeKind → Prop} {outlines : List Outline} (h : AllAre p outlines)
    (hpq : ∀ {kind}, p kind → q kind) : AllAre q outlines :=
  fun o ho => (h o ho).imp hpq

/-- The anonymous classes of an expression may stand where parts of statements may. -/
theorem AllAre.toStatementParts {outlines : List Outline}
    (h : AllAre (fun kind => kind.isAnonymousClass) outlines) :
    AllAre (fun kind => kind.isStatementPart) outlines :=
  h.imp NodeKind.isStatementPart_of_isAnonymousClass

/-- An initializer with its block. -/
theorem allAre_initializer {span : Span} {body : Outline} (kind : NodeKind)
    (hkind : kind.isMember) (holds : ∀ above?, kind.Holds above? [.block])
    (hbody : body.Is (· = .block)) :
    AllAre (fun kind => kind.isMember) [.node kind span [body]] := by
  refine allAre_cons.mpr ⟨.node hkind (allAre_cons.mpr ⟨hbody, allAre_nil _⟩) fun above? => ?_,
    allAre_nil _⟩
  show kind.Holds above? [body.kind]
  rw [hbody.kind_is]
  exact holds above?

/-- A block as what a statement leaves. -/
theorem allAre_block {body : Outline} (h : body.Is (· = .block)) :
    AllAre (fun kind => kind.isStatementPart) [body] :=
  allAre_cons.mpr ⟨h.imp fun hkind => by rw [hkind]; rfl, allAre_nil _⟩

/-- A constant of an enum with the anonymous classes in its arguments and its body, if any. -/
theorem is_enumConstant_node {name : String} {span : Span} {arguments body : List Outline}
    (hclasses : AllAre (fun kind => kind.isAnonymousClass) arguments)
    (hbody : AllAre (· = .typeBody) body)
    (hkinds : body.map Outline.kind = [] ∨ body.map Outline.kind = [.typeBody]) :
    (Outline.node (.enumConstant name) span (arguments ++ body)).Is fun kind =>
      kind.isEnumConstant := by
  have hall : AllAre (fun _ => True) (arguments ++ body) :=
    allAre_append.mpr ⟨hclasses.imp fun _ => trivial, hbody.imp fun _ => trivial⟩
  refine .node rfl hall fun above? => ?_
  refine ⟨arguments.map Outline.kind, body.map Outline.kind, List.map_append, ?_, hkinds⟩
  exact forall_kind_of_is hclasses

/-- A row is made of things of the kinds that each of its things leaves. -/
theorem allAre_row {n : Nat} {p : NodeKind → Prop} {enclosure : Enclosure}
    {one : (c : Cursor) → Except SyntaxError (After c (List Outline))}
    {row : (c : Cursor) → Except SyntaxError (From c (List Outline))}
    (hrow : ReadsRow enclosure one row)
    (hone : ∀ {c : Cursor} {r : After c (List Outline)}, c.remaining < n → one c = .ok r →
      AllAre p r.value)
    {c : Cursor} {r : From c (List Outline)} (hc : c.remaining < n) (h : row c = .ok r) :
    AllAre p r.value := by
  refine hrow.induction (motive := fun c r => c.remaining < n → AllAre p r.value) ?_ ?_ h hc
  · exact fun _ _ _ => allAre_nil p
  · intro c first others _ _ hfirst hothers hc
    exact allAre_append.mpr ⟨hone hc hfirst, hothers (Nat.lt_trans first.behind hc)⟩

/-! ## Headings -/

/-- The kind that a heading gives is one of the four kinds of types; any other word is refused
there. -/
theorem isType_typeHeading {c : Cursor} {ms : List Modifier} {r : After c (NodeKind × Span)}
    (h : c.typeHeading ms = .ok r) : r.value.1.isType := by
  rw [typeHeading] at h
  split at h
  obtain ⟨⟨⟨name, nameSpan⟩, c₂, h₂⟩, -, h⟩ := bind_eq_ok.mp h
  obtain ⟨⟨_, c₃, h₃⟩, -, h⟩ := bind_eq_ok.mp h
  dsimp only at h
  split at h
  case h_5 => cases h
  all_goals
    obtain rfl := Except.ok.inj h
    rfl

/-- A parameter is one node or, for a receiver, none. -/
theorem allAre_parameter {c : Cursor} {r : After c (List Outline)} (h : c.parameter = .ok r) :
    AllAre (fun kind => kind.isParameter) r.value := by
  rw [parameter] at h
  obtain ⟨⟨ms, c₁, h₁⟩, -, h⟩ := bind_eq_ok.mp h
  obtain ⟨⟨type, c₂, h₂⟩, -, h⟩ := bind_eq_ok.mp h
  dsimp only at h
  split at h
  · obtain rfl := Except.ok.inj h
    exact allAre_nil _
  · obtain ⟨⟨⟨name, span⟩, c₄, h₄⟩, -, h⟩ := bind_eq_ok.mp h
    obtain rfl := Except.ok.inj h
    refine allAre_cons.mpr ⟨?_, allAre_nil _⟩
    exact .node rfl (allAre_nil fun _ => True) fun _ => rfl

/-- All nodes of a list of parameters are parameters, by the recursion of the list. -/
theorem allAre_parameterList {c : Cursor} {r : After c (List Outline)}
    (h : c.parameterList = .ok r) : AllAre (fun kind => kind.isParameter) r.value := by
  rw [parameterList] at h
  obtain ⟨⟨first, c₁, h₁⟩, hfirst, h⟩ := bind_eq_ok.mp h
  dsimp only at h
  split at h
  · next _ c₂ h₂ _ =>
    obtain ⟨⟨others, c₃, h₃⟩, hothers, h⟩ := bind_eq_ok.mp h
    obtain rfl := Except.ok.inj h
    exact allAre_append.mpr ⟨allAre_parameter hfirst, allAre_parameterList hothers⟩
  · obtain rfl := Except.ok.inj h
    exact allAre_parameter hfirst
termination_by c.remaining

/-- The node of the parameters holds nothing but parameters, also when there are none. -/
theorem is_parameters {c : Cursor} {r : After c Outline} (h : c.parameters = .ok r) :
    r.value.Is (· = .parameters) := by
  rw [parameters] at h
  obtain ⟨⟨opening, c₁, h₁⟩, -, h⟩ := bind_eq_ok.mp h
  obtain ⟨⟨ps, c₂, h₂⟩, hps, h⟩ := ite_bind_eq_ok.mp h
  obtain ⟨⟨_, c₃, h₃⟩, -, h⟩ := bind_eq_ok.mp h
  obtain rfl := Except.ok.inj h
  have hall : AllAre (fun kind => kind.isParameter) ps := by
    split at hps
    · obtain ⟨rfl, -⟩ := From.mk.inj (Except.ok.inj hps)
      exact allAre_nil _
    · obtain ⟨list, hlist, heq⟩ := map_eq_ok.mp hps
      obtain ⟨rfl, -⟩ := From.mk.inj heq
      exact allAre_parameterList hlist
  exact .node rfl hall fun _ => forall_kind_of_is hall

/-- The variable of a catch clause is a parameter of the first of the listed types. -/
theorem is_catchParameter {c : Cursor} {r : After c Outline} (h : c.catchParameter = .ok r) :
    r.value.Is fun kind => kind.isParameter := by
  rw [catchParameter] at h
  obtain ⟨⟨_, c₁, h₁⟩, -, h⟩ := bind_eq_ok.mp h
  obtain ⟨⟨ms, c₂, h₂⟩, -, h⟩ := bind_eq_ok.mp h
  obtain ⟨⟨type, c₃, h₃⟩, -, h⟩ := bind_eq_ok.mp h
  obtain ⟨⟨_, c₄, h₄⟩, -, h⟩ := bind_eq_ok.mp h
  obtain ⟨⟨⟨name, span⟩, c₅, h₅⟩, -, h⟩ := bind_eq_ok.mp h
  obtain ⟨⟨_, c₆, h₆⟩, -, h⟩ := bind_eq_ok.mp h
  obtain rfl := Except.ok.inj h
  exact .node rfl (allAre_nil fun _ => True) fun _ => rfl

/-! ## Bodies, blocks and expressions

Readers come back to themselves only behind a token, through one of four: so what those four give at
cursors with fewer than `n` tokens left tells what all give with `n` left.
-/

/-- What is built at cursors with fewer than `n` tokens left conforms. -/
structure ConformsBelow (n : Nat) : Prop where
  typeBody : ∀ {c : Cursor} {r : After c Outline}, c.remaining < n → c.typeBody = .ok r →
    r.value.Is (· = .typeBody)
  typeDeclaration : ∀ {c : Cursor} {ms : List Modifier} {r : After c Outline}, c.remaining < n →
    c.typeDeclaration ms = .ok r → r.value.Is fun kind => kind.isType
  statement : ∀ {c : Cursor} {r : After c (List Outline)}, c.remaining < n →
    c.statement = .ok r → AllAre (fun kind => kind.isStatementPart) r.value
  expression : ∀ {c : Cursor} {terminators : List Token} {depth : Nat}
    {r : From c (List Outline)}, c.remaining < n → c.expression terminators depth = .ok r →
    AllAre (fun kind => kind.isAnonymousClass) r.value

section

variable {n : Nat} (ih : ConformsBelow n)
include ih

/-- Arguments leave the anonymous classes of the expressions in them. -/
theorem allAre_arguments {c : Cursor} {r : After c (List Outline)} (hc : c.remaining ≤ n)
    (h : c.arguments = .ok r) : AllAre (fun kind => kind.isAnonymousClass) r.value := by
  rw [arguments] at h
  obtain ⟨⟨_, c₁, h₁⟩, -, h⟩ := bind_eq_ok.mp h
  obtain ⟨⟨classes, c₂, h₂⟩, hclasses, h⟩ := bind_eq_ok.mp h
  obtain ⟨⟨_, c₃, h₃⟩, -, h⟩ := bind_eq_ok.mp h
  obtain rfl := Except.ok.inj h
  have hclasses := ih.expression (by omega) hclasses
  exact hclasses

/-- A creation leaves the classes of its arguments and, if it has a body, a class of its own behind
them. -/
theorem allAre_creation {c : Cursor} {r : After c (List Outline)} (hc : c.remaining ≤ n)
    (h : c.creation = .ok r) : AllAre (fun kind => kind.isAnonymousClass) r.value := by
  rw [creation] at h
  obtain ⟨⟨_, c₁, h₁⟩, -, h⟩ := bind_eq_ok.mp h
  obtain ⟨⟨_, c₂, h₂⟩, -, h⟩ := bind_eq_ok.mp h
  obtain ⟨⟨type, c₃, h₃⟩, -, h⟩ := bind_eq_ok.mp h
  dsimp only at h
  split at h
  · obtain ⟨⟨arguments, c₄, h₄⟩, harguments, h⟩ := bind_eq_ok.mp h
    have harguments := allAre_arguments ih (by omega) harguments
    dsimp only at h
    split at h
    · obtain ⟨⟨body, c₅, h₅⟩, hbody, h⟩ := bind_eq_ok.mp h
      obtain rfl := Except.ok.inj h
      have hbody := ih.typeBody (by omega) hbody
      -- the class of its own holds exactly one body
      refine allAre_append.mpr ⟨harguments, allAre_cons.mpr ⟨?_, allAre_nil _⟩⟩
      refine .node rfl (allAre_cons.mpr ⟨hbody, allAre_nil _⟩) fun above? => ?_
      exact congrArg (fun kind => [kind]) hbody.kind_is
    · obtain rfl := Except.ok.inj h
      exact harguments
  · obtain rfl := Except.ok.inj h
    exact allAre_nil _

/-- An expression leaves the anonymous classes in it, whatever it may end at and however deep it is.
-/
theorem allAre_expression {c : Cursor} {terminators : List Token} {depth : Nat}
    {r : From c (List Outline)} (hc : c.remaining ≤ n)
    (h : c.expression terminators depth = .ok r) :
    AllAre (fun kind => kind.isAnonymousClass) r.value := by
  rw [expression] at h
  split at h
  · cases h
  · next t _ c₁ h₁ _ =>
    split at h
    · obtain rfl := Except.ok.inj h
      exact allAre_nil _
    · split at h
      · obtain ⟨⟨first, c₂, h₂⟩, hfirst, h⟩ := bind_eq_ok.mp h
        obtain ⟨⟨others, c₃, h₃⟩, hothers, h⟩ := bind_eq_ok.mp h
        obtain rfl := Except.ok.inj h
        have hothers := ih.expression (by omega) hothers
        exact allAre_append.mpr ⟨allAre_creation ih (by omega) hfirst, hothers⟩
      · obtain ⟨⟨classes, c₂, h₂⟩, hclasses, h⟩ := bind_eq_ok.mp h
        obtain rfl := Except.ok.inj h
        have hclasses := ih.expression (by omega) hclasses
        exact hclasses

/-- Declarators leave at least one variable, each with the classes of its initializer below it. That
there is one is what a member of fields has to have. -/
theorem allAre_declarators {c : Cursor} {ms : List Modifier} {type : TypeRef} {name : String}
    {span : Span} {r : From c (List Outline)} (hc : c.remaining ≤ n)
    (h : c.declarators ms type name span = .ok r) :
    r.value ≠ [] ∧ AllAre (fun kind => kind.isVariable) r.value := by
  rw [declarators] at h
  split at h
  next type' c₁ h₁ _ =>
  -- behind the initializer both ways go on alike
  extract_lets goOn at h
  obtain ⟨⟨classes, c₂, h₂⟩, hclasses, h⟩ : ∃ r₂ : From c₁ (List Outline),
      AllAre (fun kind => kind.isAnonymousClass) r₂.value ∧ goOn r₂ = .ok r := by
    split at h
    · next c₂ h₂ _ =>
      obtain ⟨⟨classes, c₃, h₃⟩, hclasses, h⟩ := bind_eq_ok.mp h
      have hclasses := allAre_expression ih (by omega) hclasses
      exact ⟨⟨classes, c₃, (h₃.trans_lt h₂).le⟩, hclasses, h⟩
    · exact ⟨c₁.stay [], allAre_nil _, h⟩
  dsimp only [goOn] at h
  have hself : (Outline.node (.variableDef name ms type') span classes).Is fun kind =>
      kind.isVariable := .node rfl hclasses fun _ => forall_kind_of_is hclasses
  split at h
  · next c₃ h₃ _ =>
    obtain ⟨⟨⟨name', span'⟩, c₄, h₄⟩, -, h⟩ := bind_eq_ok.mp h
    obtain ⟨⟨others, c₅, h₅⟩, hothers, h⟩ := bind_eq_ok.mp h
    obtain rfl := Except.ok.inj h
    have hc₄ : c₄.remaining ≤ n := by omega
    have hothers := allAre_declarators hc₄ hothers
    exact ⟨List.cons_ne_nil _ _, allAre_cons.mpr ⟨hself, hothers.2⟩⟩
  · obtain rfl := Except.ok.inj h
    exact ⟨List.cons_ne_nil _ _, allAre_cons.mpr ⟨hself, allAre_nil _⟩⟩
termination_by c.remaining

/-- The statements of a block leave parts of statements. -/
theorem allAre_statements {c : Cursor} {r : From c (List Outline)} (hc : c.remaining < n)
    (h : c.statements = .ok r) : AllAre (fun kind => kind.isStatementPart) r.value :=
  allAre_row readsRow_statements ih.statement hc h

/-- A block may hold whatever statements leave, so it conforms. -/
theorem is_block {c : Cursor} {r : After c Outline} (hc : c.remaining ≤ n) (h : c.block = .ok r) :
    r.value.Is (· = .block) := by
  rw [block_eq] at h
  obtain ⟨c₁, parts, s, h₁, hparts, hvalue⟩ := braces_eq_ok h
  have hall := allAre_statements ih (by omega) hparts
  rw [hvalue]
  exact .node rfl hall fun _ => forall_kind_of_is hall

/-- A declaration of locals leaves variables, an expression its classes; both are parts of
statements. -/
theorem allAre_localOrExpression {c : Cursor} {r : After c (List Outline)} (hc : c.remaining ≤ n)
    (h : c.localOrExpression = .ok r) : AllAre (fun kind => kind.isStatementPart) r.value := by
  rw [localOrExpression] at h
  split at h
  · next c₁ h₁ _ =>
    obtain ⟨⟨⟨name, span⟩, c₂, h₂⟩, -, h⟩ := bind_eq_ok.mp h
    obtain ⟨⟨declared, c₃, h₃⟩, hdeclared, h⟩ := bind_eq_ok.mp h
    obtain ⟨⟨_, c₄, h₄⟩, -, h⟩ := bind_eq_ok.mp h
    obtain rfl := Except.ok.inj h
    exact (allAre_declarators ih (by omega) hdeclared).2.imp NodeKind.isStatementPart_of_isVariable
  · obtain ⟨_, -, h⟩ := bind_eq_ok.mp h
    obtain ⟨⟨classes, c₁, h₁⟩, hclasses, h⟩ := bind_eq_ok.mp h
    obtain ⟨⟨_, c₂, h₂⟩, -, h⟩ := bind_eq_ok.mp h
    obtain rfl := Except.ok.inj h
    exact (allAre_expression ih (by omega) hclasses).toStatementParts

/-- A label of a switch leaves the classes of its expression, beside the parts of statements that
statements leave. -/
theorem allAre_caseGroup {c : Cursor} {r : After c (List Outline)} (hc : c.remaining < n)
    (h : c.caseGroup = .ok r) : AllAre (fun kind => kind.isStatementPart) r.value := by
  rw [caseGroup] at h
  split at h
  · obtain ⟨⟨classes, c₂, h₂⟩, hclasses, h⟩ := bind_eq_ok.mp h
    obtain ⟨⟨_, c₃, h₃⟩, -, h⟩ := bind_eq_ok.mp h
    obtain rfl := Except.ok.inj h
    exact (allAre_expression ih (by omega) hclasses).toStatementParts
  · split at h
    · obtain rfl := Except.ok.inj h
      exact allAre_nil _
    · exact ih.statement hc h
  · exact ih.statement hc h

/-- The groups of a switch leave parts of statements. -/
theorem allAre_caseGroups {c : Cursor} {r : From c (List Outline)} (hc : c.remaining < n)
    (h : c.caseGroups = .ok r) : AllAre (fun kind => kind.isStatementPart) r.value :=
  allAre_row readsRow_caseGroups (allAre_caseGroup ih) hc h

/-- The body of a switch is a block. -/
theorem is_switchBody {c : Cursor} {r : After c Outline} (hc : c.remaining ≤ n)
    (h : c.switchBody = .ok r) : r.value.Is (· = .block) := by
  rw [switchBody_eq] at h
  obtain ⟨c₁, groups, s, h₁, hgroups, hvalue⟩ := braces_eq_ok h
  have hall := allAre_caseGroups ih (by omega) hgroups
  rw [hvalue]
  exact .node rfl hall fun _ => forall_kind_of_is hall

/-- The first clause of a loop leaves variables or classes. -/
theorem allAre_forInitializer {c : Cursor} {opening : Span} {r : From c (List Outline)}
    (hc : c.remaining ≤ n) (h : c.forInitializer opening = .ok r) :
    AllAre (fun kind => kind.isStatementPart) r.value := by
  rw [forInitializer] at h
  split at h
  · next ms type c₁ h₁ _ =>
    obtain ⟨⟨⟨name, span⟩, c₂, h₂⟩, -, h⟩ := bind_eq_ok.mp h
    obtain ⟨⟨declared, c₃, h₃⟩, hdeclared, h⟩ := bind_eq_ok.mp h
    obtain rfl := Except.ok.inj h
    have hall := allAre_declarators ih (by omega) hdeclared
    refine allAre_cons.mpr ⟨.node rfl hall.2 fun above? => ⟨?_, forall_kind_of_is hall.2⟩,
      allAre_nil _⟩
    simpa using hall.1
  · exact (allAre_expression ih (by omega) h).toStatementParts

/-- The clauses of a loop leave its variables and the classes of its expressions. -/
theorem allAre_forClauses {c : Cursor} {opening : Span} {r : After c (List Outline)}
    (hc : c.remaining ≤ n) (h : c.forClauses opening = .ok r) :
    AllAre (fun kind => kind.isStatementPart) r.value := by
  rw [forClauses] at h
  split at h
  · next ms type c₁ h₁ _ =>
    obtain ⟨⟨⟨name, span⟩, c₂, h₂⟩, -, h⟩ := bind_eq_ok.mp h
    obtain ⟨⟨_, c₃, h₃⟩, -, h⟩ := bind_eq_ok.mp h
    obtain ⟨⟨classes, c₄, h₄⟩, hclasses, h⟩ := bind_eq_ok.mp h
    obtain rfl := Except.ok.inj h
    have hclasses := allAre_expression ih (by omega) hclasses
    -- the first child is the variable; what stands behind the colon follows it
    have hdeclared : (Outline.leaf (.variableDef name ms type) span).Is fun _ => True :=
      .node trivial (allAre_nil fun _ => True) fun _ => by simp [NodeKind.Holds]
    have hall := allAre_cons.mpr ⟨hdeclared, hclasses.imp fun _ => trivial⟩
    refine allAre_cons.mpr ⟨.node rfl hall fun above? => ?_, allAre_nil _⟩
    exact ⟨_, _, rfl, rfl, forall_kind_of_is hclasses⟩
  · obtain ⟨⟨initializer, c₁, h₁⟩, hinitializer, h⟩ := bind_eq_ok.mp h
    obtain ⟨⟨_, c₂, h₂⟩, -, h⟩ := bind_eq_ok.mp h
    obtain ⟨⟨condition, c₃, h₃⟩, hcondition, h⟩ := bind_eq_ok.mp h
    obtain ⟨⟨_, c₄, h₄⟩, -, h⟩ := bind_eq_ok.mp h
    obtain ⟨⟨update, c₅, h₅⟩, hupdate, h⟩ := bind_eq_ok.mp h
    obtain rfl := Except.ok.inj h
    have hcondition := (allAre_expression ih (by omega) hcondition).toStatementParts
    have hupdate := (allAre_expression ih (by omega) hupdate).toStatementParts
    exact allAre_append.mpr
      ⟨allAre_append.mpr ⟨allAre_forInitializer ih (by omega) hinitializer, hcondition⟩, hupdate⟩

/-- A loop leaves what its clauses and its statement leave, side by side. -/
theorem allAre_forRest {c : Cursor} {r : After c (List Outline)} (hc : c.remaining ≤ n)
    (h : c.forRest = .ok r) : AllAre (fun kind => kind.isStatementPart) r.value := by
  rw [forRest] at h
  obtain ⟨⟨opening, c₁, h₁⟩, -, h⟩ := bind_eq_ok.mp h
  obtain ⟨⟨clauses, c₂, h₂⟩, hclauses, h⟩ := bind_eq_ok.mp h
  obtain ⟨⟨_, c₃, h₃⟩, -, h⟩ := bind_eq_ok.mp h
  obtain ⟨⟨body, c₄, h₄⟩, hbody, h⟩ := bind_eq_ok.mp h
  obtain rfl := Except.ok.inj h
  exact allAre_append.mpr ⟨allAre_forClauses ih (by omega) hclauses, ih.statement (by omega) hbody⟩

/-- Each catch clause leaves a variable and its block beside each other. -/
theorem allAre_catches {c : Cursor} {r : From c (List Outline)} (hc : c.remaining ≤ n)
    (h : c.catches = .ok r) : AllAre (fun kind => kind.isStatementPart) r.value := by
  rw [catches] at h
  split at h
  · obtain rfl := Except.ok.inj h
    exact allAre_nil _
  · next clause c₁ h₁ _ =>
    obtain ⟨⟨parameter, c₂, h₂⟩, hparameter, h⟩ := bind_eq_ok.mp h
    obtain ⟨⟨body, c₃, h₃⟩, hbody, h⟩ := bind_eq_ok.mp h
    obtain ⟨⟨others, c₄, h₄⟩, hothers, h⟩ := bind_eq_ok.mp h
    obtain rfl := Except.ok.inj h
    have hparameter := is_catchParameter hparameter
    have hbody := is_block ih (by omega) hbody
    refine allAre_cons.mpr ⟨⟨rfl, fun above? => .node ?_ ?_⟩, allAre_catches (by omega) hothers⟩
    · exact ⟨parameter.kind, congrArg (fun kind => [_, kind]) hbody.kind_is, hparameter.kind_is⟩
    · simp [hparameter.conforms, hbody.conforms]
termination_by c.remaining

/-- A try statement leaves its resources, its block, its catch clauses and the block behind
`finally`. -/
theorem allAre_tryRest {c : Cursor} {r : After c (List Outline)} (hc : c.remaining ≤ n)
    (h : c.tryRest = .ok r) : AllAre (fun kind => kind.isStatementPart) r.value := by
  rw [tryRest] at h
  obtain ⟨⟨resources, c₁, h₁⟩, hresources, h⟩ := ite_bind_eq_ok.mp h
  obtain ⟨⟨body, c₂, h₂⟩, hbody, h⟩ := bind_eq_ok.mp h
  obtain ⟨⟨handlers, c₃, h₃⟩, hhandlers, h⟩ := bind_eq_ok.mp h
  have hresources : AllAre (fun kind => kind.isStatementPart) resources := by
    split at hresources
    · obtain ⟨classes, hclasses, heq⟩ := map_eq_ok.mp hresources
      obtain ⟨rfl, -⟩ := From.mk.inj heq
      exact (allAre_arguments ih (by omega) hclasses).toStatementParts
    · obtain ⟨rfl, -⟩ := From.mk.inj (Except.ok.inj hresources)
      exact allAre_nil _
  -- all but the `finally` block, which need not be there
  have hall : AllAre (fun kind => kind.isStatementPart) (resources ++ [body] ++ handlers) :=
    allAre_append.mpr ⟨allAre_append.mpr ⟨hresources, allAre_block (is_block ih (by omega) hbody)⟩,
      allAre_catches ih (by omega) hhandlers⟩
  dsimp only at h
  split at h
  · next c₄ h₄ _ =>
    obtain ⟨⟨last, c₅, h₅⟩, hlast, h⟩ := bind_eq_ok.mp h
    obtain rfl := Except.ok.inj h
    exact allAre_append.mpr ⟨hall, allAre_block (is_block ih (by omega) hlast)⟩
  · obtain rfl := Except.ok.inj h
    exact hall

/-- The constant of an enum holds the classes of its arguments and, if it has one, the body. -/
theorem is_enumConstant {c : Cursor} {r : After c Outline} (hc : c.remaining ≤ n)
    (h : c.enumConstant = .ok r) : r.value.Is fun kind => kind.isEnumConstant := by
  rw [enumConstant] at h
  obtain ⟨⟨_, c₁, h₁⟩, -, h⟩ := bind_eq_ok.mp h
  obtain ⟨⟨⟨name, span⟩, c₂, h₂⟩, -, h⟩ := bind_eq_ok.mp h
  obtain ⟨⟨arguments, c₃, h₃⟩, harguments, h⟩ := ite_bind_eq_ok.mp h
  -- there are arguments or there are none
  have hclasses : AllAre (fun kind => kind.isAnonymousClass) arguments := by
    split at harguments
    · obtain ⟨classes, hclasses, heq⟩ := map_eq_ok.mp harguments
      obtain ⟨rfl, -⟩ := From.mk.inj heq
      exact allAre_arguments ih (by omega) hclasses
    · obtain ⟨rfl, -⟩ := From.mk.inj (Except.ok.inj harguments)
      exact allAre_nil _
  dsimp only at h
  split at h
  · obtain ⟨⟨body, c₄, h₄⟩, hbody, h⟩ := bind_eq_ok.mp h
    obtain rfl := Except.ok.inj h
    have hbody := ih.typeBody (by omega) hbody
    refine is_enumConstant_node hclasses (allAre_cons.mpr ⟨hbody, allAre_nil _⟩) (.inr ?_)
    exact congrArg (fun kind => [kind]) hbody.kind_is
  · obtain rfl := Except.ok.inj h
    exact is_enumConstant_node hclasses (allAre_nil _) (.inl rfl)

/-- What a method ends with is a block, or the anonymous classes in a default value, or nothing. The
kinds are kept apart since a method holds no block beside classes. -/
theorem allAre_methodBody {c : Cursor} {r : After c (List Outline)} (hc : c.remaining ≤ n)
    (h : c.methodBody = .ok r) :
    AllAre (fun _ => True) r.value ∧ (r.value.map Outline.kind = [.block] ∨
      ∀ kind ∈ r.value.map Outline.kind, kind.isAnonymousClass) := by
  rw [methodBody] at h
  obtain ⟨⟨_, c₁, h₁⟩, -, h⟩ := bind_eq_ok.mp h
  dsimp only at h
  split at h
  · obtain rfl := Except.ok.inj h
    exact ⟨allAre_nil _, .inr (by simp)⟩
  · next c₂ h₂ _ =>
    obtain ⟨⟨classes, c₃, h₃⟩, hclasses, h⟩ := bind_eq_ok.mp h
    obtain ⟨⟨_, c₄, h₄⟩, -, h⟩ := bind_eq_ok.mp h
    obtain rfl := Except.ok.inj h
    have hclasses := allAre_expression ih (by omega) hclasses
    exact ⟨hclasses.imp fun _ => trivial, .inr (forall_kind_of_is hclasses)⟩
  · obtain ⟨⟨body, c₂, h₂⟩, hbody, h⟩ := bind_eq_ok.mp h
    obtain rfl := Except.ok.inj h
    have hbody := is_block ih (by omega) hbody
    refine ⟨allAre_cons.mpr ⟨hbody.imp fun _ => trivial, allAre_nil _⟩, .inl ?_⟩
    exact congrArg (fun kind => [kind]) hbody.kind_is

/-- A method is one node, fields are one node for each declarator; both are members. -/
theorem allAre_methodOrFields {c : Cursor} {ms : List Modifier} {r : After c (List Outline)}
    (hc : c.remaining ≤ n) (h : c.methodOrFields ms = .ok r) :
    AllAre (fun kind => kind.isMember) r.value := by
  rw [methodOrFields] at h
  obtain ⟨⟨type, c₁, h₁⟩, -, h⟩ := bind_eq_ok.mp h
  obtain ⟨⟨⟨name, span⟩, c₂, h₂⟩, -, h⟩ := bind_eq_ok.mp h
  dsimp only at h
  split at h
  · obtain ⟨⟨ps, c₃, h₃⟩, hps, h⟩ := bind_eq_ok.mp h
    obtain ⟨⟨body, c₄, h₄⟩, hbody, h⟩ := bind_eq_ok.mp h
    obtain rfl := Except.ok.inj h
    have hps := is_parameters hps
    have hc₃ : c₃.remaining ≤ n := by omega
    have hbody := allAre_methodBody ih hc₃ hbody
    -- a method holds its parameters and behind them what it ends with
    refine allAre_cons.mpr ⟨⟨rfl, fun above? => .node ?_ ?_⟩, allAre_nil _⟩
    · exact ⟨body.map Outline.kind, congrArg (· :: _) hps.kind_is, hbody.2⟩
    · intro o ho
      rcases List.mem_cons.mp ho with rfl | ho
      · exact hps.conforms _
      · exact (hbody.1 o ho).conforms _
  · obtain ⟨⟨fields, c₃, h₃⟩, hfields, h⟩ := bind_eq_ok.mp h
    obtain ⟨⟨_, c₄, h₄⟩, -, h⟩ := bind_eq_ok.mp h
    obtain rfl := Except.ok.inj h
    exact (allAre_declarators ih (by omega) hfields).2.imp NodeKind.isMember_of_isVariable

/-- A constructor holds its parameters and its block. -/
theorem is_constructor {c : Cursor} {ms : List Modifier} {r : After c Outline}
    (hc : c.remaining ≤ n) (h : c.constructor ms = .ok r) :
    r.value.Is fun kind => kind.isMember := by
  rw [constructor] at h
  obtain ⟨⟨⟨name, span⟩, c₁, h₁⟩, -, h⟩ := bind_eq_ok.mp h
  obtain ⟨⟨ps, c₂, h₂⟩, hps, h⟩ := bind_eq_ok.mp h
  obtain ⟨⟨_, c₃, h₃⟩, -, h⟩ := bind_eq_ok.mp h
  obtain ⟨⟨body, c₄, h₄⟩, hbody, h⟩ := bind_eq_ok.mp h
  obtain rfl := Except.ok.inj h
  have hps := is_parameters hps
  have hbody := is_block ih (by omega) hbody
  refine ⟨rfl, fun above? => .node ?_ ?_⟩
  · show [ps.kind, body.kind] = [.parameters, .block]
    rw [hps.kind_is, hbody.kind_is]
  · simp [hps.conforms, hbody.conforms]

/-- A member that begins with modifiers is a type, a constructor, a method or a row of fields. -/
theorem allAre_memberDeclaration {c : Cursor} {r : After c (List Outline)} (hc : c.remaining < n)
    (h : c.memberDeclaration = .ok r) : AllAre (fun kind => kind.isMember) r.value := by
  rw [memberDeclaration] at h
  obtain ⟨⟨ms, c₁, h₁⟩, -, h⟩ := bind_eq_ok.mp h
  dsimp only at h
  split at h
  · obtain ⟨⟨type, c₂, h₂⟩, htype, h⟩ := bind_eq_ok.mp h
    obtain rfl := Except.ok.inj h
    refine allAre_cons.mpr ⟨?_, allAre_nil _⟩
    exact (ih.typeDeclaration (by omega) htype).imp NodeKind.isMember_of_isType
  · obtain ⟨⟨_, c₂, h₂⟩, -, h⟩ := bind_eq_ok.mp h
    dsimp only at h
    split at h
    · obtain ⟨⟨declared, c₃, h₃⟩, hdeclared, h⟩ := bind_eq_ok.mp h
      obtain rfl := Except.ok.inj h
      exact allAre_cons.mpr ⟨is_constructor ih (by omega) hdeclared, allAre_nil _⟩
    · obtain ⟨⟨declared, c₃, h₃⟩, hdeclared, h⟩ := bind_eq_ok.mp h
      obtain rfl := Except.ok.inj h
      have hdeclared := allAre_methodOrFields ih (by omega) hdeclared
      exact hdeclared

/-- A member is an initializer or a member declaration; a lone semicolon leaves nothing. -/
theorem allAre_member {c : Cursor} {r : After c (List Outline)} (hc : c.remaining < n)
    (h : c.member = .ok r) : AllAre (fun kind => kind.isMember) r.value := by
  rw [member] at h
  split at h
  · obtain rfl := Except.ok.inj h
    exact allAre_nil _
  · obtain ⟨⟨body, c₁, h₁⟩, hbody, h⟩ := bind_eq_ok.mp h
    obtain rfl := Except.ok.inj h
    exact allAre_initializer .instanceInit rfl (fun _ => rfl) (is_block ih (by omega) hbody)
  · next c₁ h₁ _ =>
    split at h
    · obtain ⟨⟨body, c₂, h₂⟩, hbody, h⟩ := bind_eq_ok.mp h
      obtain rfl := Except.ok.inj h
      exact allAre_initializer .staticInit rfl (fun _ => rfl) (is_block ih (by omega) hbody)
    · exact allAre_memberDeclaration ih (by omega) h
  · exact allAre_memberDeclaration ih (by omega) h

/-- The members of a body are members, by induction on the tokens that are left. -/
theorem allAre_members {c : Cursor} {r : From c (List Outline)} (hc : c.remaining < n)
    (h : c.members = .ok r) : AllAre (fun kind => kind.isMember) r.value :=
  allAre_row readsRow_members (allAre_member ih) hc h

/-- The constants of an enum stand in front of its members. -/
theorem allAre_enumConstants {c : Cursor} {r : From c (List Outline)}
    (hc : c.remaining < n) (h : c.enumConstants = .ok r) :
    AllAre (fun kind => kind.isMember ∨ kind.isEnumConstant) r.value := by
  rw [enumConstants] at h
  split at h
  · next c₁ h₁ _ =>
    obtain ⟨⟨members, c₂, h₂⟩, hmembers, h⟩ := bind_eq_ok.mp h
    obtain rfl := Except.ok.inj h
    -- behind the semicolon only members are left
    exact (allAre_members ih (by omega) hmembers).imp .inl
  · obtain rfl := Except.ok.inj h
    exact allAre_nil _
  · next c₁ h₁ _ =>
    obtain ⟨⟨others, c₂, h₂⟩, hothers, h⟩ := bind_eq_ok.mp h
    obtain rfl := Except.ok.inj h
    have hothers := allAre_enumConstants (by omega) hothers
    exact hothers
  · obtain ⟨⟨constant, c₁, h₁⟩, hconstant, h⟩ := bind_eq_ok.mp h
    obtain ⟨⟨others, c₂, h₂⟩, hothers, h⟩ := bind_eq_ok.mp h
    obtain rfl := Except.ok.inj h
    have hconstant := is_enumConstant ih (by omega) hconstant
    exact allAre_cons.mpr ⟨hconstant.imp .inr, allAre_enumConstants (by omega) hothers⟩
termination_by c.remaining

/-- The body of a class or interface holds members, so it conforms below any kind. -/
theorem is_typeBody {c : Cursor} {r : After c Outline} (hc : c.remaining ≤ n)
    (h : c.typeBody = .ok r) : r.value.Is (· = .typeBody) := by
  rw [typeBody_eq] at h
  obtain ⟨c₁, members, s, h₁, hmembers, hvalue⟩ := braces_eq_ok h
  have hall := allAre_members ih (by omega) hmembers
  rw [hvalue]
  exact .node rfl hall fun _ kind hkind => .inl (forall_kind_of_is hall kind hkind)

/-- The body of an enum conforms only where an enum stands above it, since no other type may hold
constants. -/
theorem conforms_enumBody {c : Cursor} {r : After c Outline} (hc : c.remaining ≤ n)
    (h : c.enumBody = .ok r) :
    r.value.kind = .typeBody ∧ ∀ name ms, r.value.Conforms (some (.enumDef name ms)) := by
  rw [enumBody_eq] at h
  obtain ⟨c₁, members, s, h₁, hmembers, hvalue⟩ := braces_eq_ok h
  have hall := allAre_enumConstants ih (by omega) hmembers
  rw [hvalue]
  refine ⟨rfl, fun name ms => .of_all hall fun kind hkind => ?_⟩
  -- constants may stand here because the node above is an enum
  rcases forall_kind_of_is hall kind hkind with hmember | hconstant
  · exact .inl hmember
  · exact .inr ⟨hconstant, rfl⟩

/-- A declaration conforms: an enum with the body of an enum, each other kind of type with a body of
members. -/
theorem is_typeDeclaration {c : Cursor} {ms : List Modifier} {r : After c Outline}
    (hc : c.remaining ≤ n) (h : c.typeDeclaration ms = .ok r) :
    r.value.Is fun kind => kind.isType := by
  rw [typeDeclaration] at h
  obtain ⟨⟨⟨kind, span⟩, c₁, h₁⟩, hkind, h⟩ := bind_eq_ok.mp h
  have htype : kind.isType := isType_typeHeading hkind
  dsimp only at h
  split at h
  · obtain ⟨⟨body, c₂, h₂⟩, hbody, h⟩ := bind_eq_ok.mp h
    obtain rfl := Except.ok.inj h
    have hbody := conforms_enumBody ih (by omega) hbody
    refine ⟨htype, fun above? => .node (congrArg (fun kind => [kind]) hbody.1) ?_⟩
    simpa using hbody.2 _ _
  · obtain ⟨⟨body, c₂, h₂⟩, hbody, h⟩ := bind_eq_ok.mp h
    obtain rfl := Except.ok.inj h
    have hbody := is_typeBody ih (by omega) hbody
    refine .node htype (allAre_cons.mpr ⟨hbody, allAre_nil _⟩) fun above? => ?_
    have hone : [body].map Outline.kind = [.typeBody] := congrArg (fun kind => [kind]) hbody.kind_is
    rw [hone]
    cases kind <;> first | rfl | cases htype

/-- A local class is one node among the parts of statements. -/
theorem allAre_localClass {c : Cursor} {r : After c (List Outline)} (hc : c.remaining ≤ n)
    (h : c.localClass = .ok r) : AllAre (fun kind => kind.isStatementPart) r.value := by
  obtain ⟨⟨ms, c₁, h₁⟩, -, h⟩ := bind_eq_ok.mp h
  dsimp only at h
  split at h
  · obtain ⟨⟨type, c₂, h₂⟩, htype, h⟩ := bind_eq_ok.mp h
    obtain rfl := Except.ok.inj h
    have htype := is_typeDeclaration ih (by omega) htype
    exact allAre_cons.mpr ⟨htype.imp NodeKind.isStatementPart_of_isType, allAre_nil _⟩
  · exact allAre_localOrExpression ih hc h

/-- Each step of a statement leaves what may stand in a block. -/
theorem allAre_statementStep {c : Cursor} {r : From c (List Outline)} {step : StatementStep}
    (hc : c.remaining < n) (h : step.read c = .ok r) :
    AllAre (fun kind => kind.isStatementPart) r.value := by
  cases step with
  | skip =>
    obtain rfl := Except.ok.inj h
    exact allAre_nil _
  | mark m =>
    obtain ⟨_, -, h⟩ := bind_eq_ok.mp h
    obtain rfl := Except.ok.inj h
    exact allAre_nil _
  | otherwise =>
    -- the `else` may be missing, and then nothing is left by it
    rw [StatementStep.read] at h
    split at h
    · next r₁ _ =>
      obtain ⟨r₂, hno, h⟩ := bind_eq_ok.mp h
      obtain rfl := Except.ok.inj h
      exact ih.statement (Nat.lt_trans r₁.behind hc) hno
    · obtain rfl := Except.ok.inj h
      exact allAre_nil _
  | expression => exact (allAre_expression ih (Nat.le_of_lt hc) h).toStatementParts
  | arguments =>
    obtain ⟨r, hclasses, h⟩ := bind_eq_ok.mp h
    obtain rfl := Except.ok.inj h
    exact (allAre_arguments ih (Nat.le_of_lt hc) hclasses).toStatementParts
  | statement =>
    obtain ⟨r, hbody, h⟩ := bind_eq_ok.mp h
    obtain rfl := Except.ok.inj h
    exact ih.statement hc hbody
  | block =>
    obtain ⟨r, hbody, h⟩ := bind_eq_ok.mp h
    obtain rfl := Except.ok.inj h
    exact allAre_block (is_block ih (Nat.le_of_lt hc) hbody)
  | switchBody =>
    obtain ⟨r, hbody, h⟩ := bind_eq_ok.mp h
    obtain rfl := Except.ok.inj h
    exact allAre_block (is_switchBody ih (Nat.le_of_lt hc) hbody)
  | forRest =>
    obtain ⟨r, hparts, h⟩ := bind_eq_ok.mp h
    obtain rfl := Except.ok.inj h
    exact allAre_forRest ih (Nat.le_of_lt hc) hparts
  | tryRest =>
    obtain ⟨r, hparts, h⟩ := bind_eq_ok.mp h
    obtain rfl := Except.ok.inj h
    exact allAre_tryRest ih (Nat.le_of_lt hc) hparts

/-- The steps of a statement leave parts of statements, one step after the other. -/
theorem allAre_readAll {c : Cursor} {r : From c (List Outline)} {steps : List StatementStep}
    (hc : c.remaining < n) (h : StatementStep.readAll c steps = .ok r) :
    AllAre (fun kind => kind.isStatementPart) r.value := by
  induction steps generalizing c with
  | nil =>
    obtain rfl := Except.ok.inj h
    exact allAre_nil _
  | cons step steps ihSteps =>
    obtain ⟨r₁, hfirst, h⟩ := bind_eq_ok.mp h
    obtain ⟨r₂, hothers, h⟩ := bind_eq_ok.mp h
    obtain rfl := Except.ok.inj h
    have hothers := ihSteps (Nat.lt_of_le_of_lt r₁.notBefore hc) hothers
    exact allAre_append.mpr ⟨allAre_statementStep ih hc hfirst, hothers⟩

/-- Every form of statement leaves parts of statements. Each form is a row of steps, so only the
steps and the forms with readers of their own are told apart. -/
theorem allAre_statement {c : Cursor} {r : After c (List Outline)} (hc : c.remaining ≤ n)
    (h : c.statement = .ok r) : AllAre (fun kind => kind.isStatementPart) r.value := by
  rw [statement_eq] at h
  generalize statementForm c.current c.following = form at h
  cases form with
  | block =>
    obtain ⟨r, hbody, h⟩ := bind_eq_ok.mp h
    obtain rfl := Except.ok.inj h
    exact allAre_block (is_block ih hc hbody)
  | row steps =>
    rw [StatementForm.read] at h
    split at h
    · cases h
    · next c₁ h₁ _ =>
      obtain ⟨r, hsteps, h⟩ := bind_eq_ok.mp h
      obtain rfl := Except.ok.inj h
      have hall := allAre_readAll ih (by omega) hsteps
      exact hall
  | localClass => exact allAre_localClass ih hc h
  | localOrExpression => exact allAre_localOrExpression ih hc h

end

/-- What all readers give conforms, by induction on the number of tokens that are left. Each reader
is used with fewer tokens by the others or, on as many, by those of higher rank, in the order of the
lemmas above. -/
theorem conformsBelow (n : Nat) : ConformsBelow n := by
  induction n with
  | zero => exact ⟨nofun, nofun, nofun, nofun⟩
  | succ n ih =>
    exact
      { typeBody := fun hc h => is_typeBody ih (Nat.le_of_lt_succ hc) h
        typeDeclaration := fun hc h => is_typeDeclaration ih (Nat.le_of_lt_succ hc) h
        statement := fun hc h => allAre_statement ih (Nat.le_of_lt_succ hc) h
        expression := fun hc h => allAre_expression ih (Nat.le_of_lt_succ hc) h }

/-! ## Compilation units -/

/-- An entry of a unit leaves the type that it declares, or nothing. -/
theorem allAre_unitEntry {c : Cursor} {r : After c (List Outline)} (h : c.unitEntry = .ok r) :
    AllAre (fun kind => kind.isType) r.value := by
  rw [unitEntry] at h
  split at h
  · obtain rfl := Except.ok.inj h
    exact allAre_nil _
  case h_2 | h_3 =>
    obtain ⟨_, -, h⟩ := bind_eq_ok.mp h
    obtain rfl := Except.ok.inj h
    exact allAre_nil _
  · rw [withModifiers] at h
    obtain ⟨⟨ms, c₁, h₁⟩, -, h⟩ := bind_eq_ok.mp h
    dsimp only at h
    split at h
    · obtain ⟨_, -, h⟩ := bind_eq_ok.mp h
      obtain rfl := Except.ok.inj h
      exact allAre_nil _
    · obtain ⟨⟨type, c₂, h₂⟩, htype, h⟩ := bind_eq_ok.mp h
      obtain rfl := Except.ok.inj h
      -- no bound is needed any more: all readers conform
      have htype := (conformsBelow _).typeDeclaration (Nat.lt_succ_self _) htype
      exact allAre_cons.mpr ⟨htype, allAre_nil _⟩

/-- The declarations of a unit are types; headers and directives leave nothing. -/
theorem allAre_declarations {c : Cursor} {r : From c (List Outline)}
    (h : c.declarations = .ok r) : AllAre (fun kind => kind.isType) r.value := by
  refine declarations_induction (motive := fun _ r => AllAre _ r.value) ?_ ?_ h
  · exact fun _ _ => allAre_nil _
  · exact fun _ _ _ _ hfirst hothers => allAre_append.mpr ⟨allAre_unitEntry hfirst, hothers⟩

end Cursor

/-- Every tree that is read from some tokens comes about by adding nodes, and each of its nodes
holds what it may. -/
theorem Parser.conforms_of_next {p : Parser} {t : SyntaxTree} (h : p.next.1 = .ok t) :
    t.Grown ∧ t.Conforms := by
  rw [next] at h
  split at h
  · cases h
  · split at h
    · next r hr =>
      obtain rfl := Except.ok.inj h
      exact ⟨SyntaxTree.grown_ofOutlines _,
        SyntaxTree.conforms_ofOutlines (Cursor.allAre_declarations hr)⟩
    · cases h

end FieldShadow
