import FieldShadow.Proofs.HiddenField.OwnFields

/-!
# Where nodes stand

The schema of a syntax tree says what a node may hold. Read the other way it says where a node may
stand (`NodeKind.StandsIn`): that types have a body of their own, that constants belong to enums,
that every parameter has an owner and that every variable is a field or local. The rule relies on
all of it, and every tree that is read obeys it (`Parser.obeysSchema_of_next`).
-/

namespace FieldShadow

namespace NodeKind

/-- A constructor. -/
def isConstructor : NodeKind → Bool
  | .constructorDef .. => true
  | _ => false

/-- The kinds of nodes that a node may stand in. The root stands in none. -/
def StandsIn (kind owner : NodeKind) : Prop :=
  match kind with
  | .compilationUnit => False
  | .classDef .. | .interfaceDef .. | .annotationDef .. | .enumDef .. =>
    owner = .compilationUnit ∨ owner = .typeBody ∨ owner = .block
  | .enumConstant _ => owner = .typeBody
  | .typeBody => owner.isType ∨ owner.isEnumConstant ∨ owner.isAnonymousClass
  | .anonymousClass _ =>
    owner.isEnumConstant ∨ owner.isMethod ∨ owner.isVariable ∨ owner = .block ∨
      owner = .forEachClause
  | .methodDef .. | .constructorDef .. | .staticInit | .instanceInit => owner = .typeBody
  | .parameters => owner.isMethod ∨ owner.isConstructor
  | .parameterDef .. => owner = .parameters ∨ owner = .catchClause
  | .variableDef .. =>
    owner = .typeBody ∨ owner = .block ∨ owner = .forInit ∨ owner = .forEachClause
  | .block => owner.isCode ∨ owner = .block ∨ owner = .catchClause
  | .forInit | .forEachClause | .catchClause => owner = .block

/-- What a node may hold may stand in it. -/
theorem Holds.standsIn {above? : Option NodeKind} {kind child : NodeKind}
    {children : List NodeKind} (h : kind.Holds above? children) (hchild : child ∈ children) :
    child.StandsIn kind := by
  -- each kind of node holds its own kinds of children
  cases kind with
  | compilationUnit =>
    have htype := h child hchild
    cases child <;> simp_all [isType, StandsIn]
  | classDef | interfaceDef | annotationDef | enumDef | anonymousClass =>
    rw [h] at hchild
    obtain rfl := List.mem_singleton.mp hchild
    simp [StandsIn, isType, isEnumConstant, isAnonymousClass]
  | enumConstant =>
    obtain ⟨classes, body, rfl, hclasses, hbody⟩ := h
    rcases List.mem_append.mp hchild with hchild | hchild
    · have hclass := hclasses child hchild
      cases child <;> simp_all [isAnonymousClass, StandsIn, isEnumConstant]
    · obtain rfl : child = .typeBody := by
        rcases hbody with rfl | rfl <;> simp_all
      simp [StandsIn, isEnumConstant]
  | typeBody =>
    have hmember := h child hchild
    cases child <;> simp_all [isMember, isEnumConstant, isType, StandsIn]
  | methodDef =>
    obtain ⟨rest, rfl, hrest⟩ := h
    rcases List.mem_cons.mp hchild with rfl | hchild
    · simp [StandsIn, isMethod]
    · rcases hrest with rfl | hclasses
      · obtain rfl := List.mem_singleton.mp hchild
        simp [StandsIn, isCode]
      · have hclass := hclasses child hchild
        cases child <;> simp_all [isAnonymousClass, StandsIn, isMethod]
  | constructorDef =>
    rw [h] at hchild
    obtain rfl | rfl := List.mem_pair.mp hchild
    all_goals simp [StandsIn, isConstructor, isCode]
  | parameters =>
    have hparameter := h child hchild
    cases child <;> simp_all [isParameter, StandsIn]
  | parameterDef =>
    rw [h] at hchild
    exact absurd hchild List.not_mem_nil
  | variableDef =>
    have hclass := h child hchild
    cases child <;> simp_all [isAnonymousClass, StandsIn, isVariable]
  | staticInit | instanceInit =>
    rw [h] at hchild
    obtain rfl := List.mem_singleton.mp hchild
    simp [StandsIn, isCode]
  | block =>
    have hpart := h child hchild
    cases child <;> simp_all [isStatementPart, isType, StandsIn]
  | forInit =>
    have hvariable := h.2 child hchild
    cases child <;> simp_all [isVariable, StandsIn]
  | forEachClause =>
    obtain ⟨declared, rest, rfl, hdeclared, hrest⟩ := h
    rcases List.mem_cons.mp hchild with rfl | hchild
    · cases child <;> simp_all [isVariable, StandsIn]
    · have hclass := hrest child hchild
      cases child <;> simp_all [isAnonymousClass, StandsIn]
  | catchClause =>
    obtain ⟨parameter, rfl, hparameter⟩ := h
    rcases List.mem_cons.mp hchild with rfl | hchild
    · cases child <;> simp_all [isParameter, StandsIn]
    · obtain rfl := List.mem_singleton.mp hchild
      simp [StandsIn]

end NodeKind

namespace SyntaxTree

variable {t : SyntaxTree} {id owner : Nat} {kind : NodeKind}

/-- The schema of a tree: what each node holds, and from there where each node stands. -/
structure ObeysSchema (t : SyntaxTree) : Prop where
  linked : t.Linked
  holds : ∀ {id kind}, t.kind? id = some kind → kind.Holds (t.kindAbove? id) (t.childKinds id)
  stands : ∀ {id kind}, t.kind? id = some kind → id ≠ root →
    ∃ owner ownerKind, t.parent? id = some owner ∧ t.kind? owner = some ownerKind ∧
      kind.StandsIn ownerKind
  /-- Types and anonymous classes have their body and nothing else. -/
  ownBody : ∀ {id kind}, t.kind? id = some kind → kind.isType ∨ kind.isAnonymousClass →
    ∃ body, t.children id = [body] ∧ t.typeBody? id = some body
  /-- The constants of an enum stand in its body. -/
  ofEnum : ∀ {id}, (t.kind? id).any NodeKind.isEnumConstant →
    ∃ body type, t.parent? id = some body ∧ t.parent? body = some type ∧
      t.typeBody? type = some body ∧ (t.kind? type).any NodeKind.isEnum
  /-- Parameters stand in a list, or at the head of a `catch` clause. -/
  ofOwner : ∀ {id}, (t.kind? id).any NodeKind.isParameter →
    ∃ owner, t.parent? id = some owner ∧ (t.kind? owner = some .parameters ∨
      t.kind? owner = some .catchClause ∧ (t.children owner).head? = some id)
  /-- Variables are fields of the body that they stand in, or local. -/
  ofBody : ∀ {id}, (t.kind? id).any NodeKind.isVariable →
    t.kindAbove? id = some .typeBody ∨ t.isLocalVariable id

/-! ## Reading the schema upward -/

/-- Every node but the root stands where its kind may. -/
theorem Conforms.standsIn (ht : t.Conforms) (hl : t.Linked) (hkind : t.kind? id = some kind)
    (hne : id ≠ root) :
    ∃ owner ownerKind, t.parent? id = some owner ∧ t.kind? owner = some ownerKind ∧
      kind.StandsIn ownerKind := by
  obtain ⟨owner, howner⟩ := hl.exists_parent id hne (lt_size_of_kind? hkind)
  obtain ⟨ownerKind, hownerKind, hholds, hmem⟩ :=
    ht.holds_parent ((hl.mem_children owner id).mpr howner) hkind
  exact ⟨owner, ownerKind, howner, hownerKind, hholds.standsIn hmem⟩

theorem Conforms.standsIn_of_any (ht : t.Conforms) (hl : t.Linked) {p : NodeKind → Bool}
    (hp : p .compilationUnit = false) (hid : (t.kind? id).any p) :
    ∃ kind owner ownerKind, t.kind? id = some kind ∧ p kind ∧ t.parent? id = some owner ∧
      t.kind? owner = some ownerKind ∧ kind.StandsIn ownerKind := by
  obtain ⟨kind, hkind, hkindp⟩ := (Option.any_eq_true _ _).mp hid
  have hne : id ≠ root := by
    rintro rfl
    simp [hl.kind_root, hp] at hid
  obtain ⟨owner, ownerKind, howner, hownerKind, hstands⟩ := ht.standsIn hl hkind hne
  exact ⟨kind, owner, ownerKind, hkind, hkindp, howner, hownerKind, hstands⟩

/-- The one child of a type or of an anonymous class is its body. -/
theorem Conforms.ownBody (ht : t.Conforms) (hkind : t.kind? id = some kind)
    (hbody : kind.isType ∨ kind.isAnonymousClass) :
    ∃ body, t.children id = [body] ∧ t.typeBody? id = some body := by
  have hkinds : t.childKinds id = [.typeBody] := by
    have hholds := ht id kind hkind
    cases kind <;> first | exact hholds | simp [NodeKind.isType, NodeKind.isAnonymousClass] at hbody
  have hmap := map_kind?_children t id
  rw [hkinds] at hmap
  obtain ⟨body, hchildren, hbodyKind⟩ := List.map_eq_singleton_iff.mp hmap
  exact ⟨body, hchildren, by simp [typeBody?, hchildren, hbodyKind]⟩

/-- A constant stands in the body of an enum, which is the body that the enum has. -/
theorem Conforms.ofEnum (ht : t.Conforms) (hl : t.Linked)
    (hconstant : (t.kind? id).any NodeKind.isEnumConstant) :
    ∃ body type, t.parent? id = some body ∧ t.parent? body = some type ∧
      t.typeBody? type = some body ∧ (t.kind? type).any NodeKind.isEnum := by
  obtain ⟨kind, body, -, hkind, hisConstant, hbody, -⟩ := ht.standsIn_of_any hl rfl hconstant
  obtain ⟨bodyKind, hbodyKind, hholds, hmem⟩ :=
    ht.holds_parent ((hl.mem_children body id).mpr hbody) hkind
  obtain ⟨-, henum⟩ := hholds.isEnum_of_isEnumConstant hmem hisConstant
  obtain ⟨typeKind, hbind, hisEnum⟩ := (Option.any_eq_true _ _).mp henum
  obtain ⟨type, htype, htypeKind⟩ := Option.bind_eq_some_iff.mp hbind
  refine ⟨body, type, hbody, htype, ?_, by rw [htypeKind]; exact hisEnum⟩
  refine ht.children_type htypeKind ?_ ((hl.mem_children type body).mpr htype)
  cases typeKind <;> simp_all [NodeKind.isEnum, NodeKind.isType]

/-- The parameter of a `catch` clause is its first child. -/
theorem Conforms.head?_children_catchClause (ht : t.Conforms) (hl : t.Linked)
    (howner : t.parent? id = some owner) (hclause : t.kind? owner = some .catchClause)
    (hparameter : (t.kind? id).any NodeKind.isParameter) :
    (t.children owner).head? = some id := by
  obtain ⟨parameter, hkinds, -⟩ := ht owner _ hclause
  have hmap := map_kind?_children t owner
  rw [hkinds] at hmap
  obtain ⟨first, rest, hchildren, -, hrest⟩ := List.map_eq_cons_iff.mp hmap
  obtain ⟨block, rfl, hblock⟩ := List.map_eq_singleton_iff.mp hrest
  have hid := (hl.mem_children owner id).mpr howner
  rw [hchildren] at hid ⊢
  -- the other child is the block
  rcases List.mem_pair.mp hid with rfl | rfl
  · rfl
  · simp [hblock, NodeKind.isParameter] at hparameter

/-- A parameter stands in a list of parameters, or first in a catch clause. -/
theorem Conforms.ofOwner (ht : t.Conforms) (hl : t.Linked)
    (hparameter : (t.kind? id).any NodeKind.isParameter) :
    ∃ owner, t.parent? id = some owner ∧ (t.kind? owner = some .parameters ∨
      t.kind? owner = some .catchClause ∧ (t.children owner).head? = some id) := by
  obtain ⟨kind, owner, ownerKind, -, hisParameter, howner, hownerKind, hstands⟩ :=
    ht.standsIn_of_any hl rfl hparameter
  refine ⟨owner, howner, ?_⟩
  obtain rfl | rfl : ownerKind = .parameters ∨ ownerKind = .catchClause := by
    cases kind <;> simp_all [NodeKind.isParameter, NodeKind.StandsIn]
  · exact .inl hownerKind
  · exact .inr ⟨hownerKind, ht.head?_children_catchClause hl howner hownerKind hparameter⟩

/-- A variable is a field or a local one, by what stands above it. -/
theorem Conforms.ofBody (ht : t.Conforms) (hl : t.Linked)
    (hvariable : (t.kind? id).any NodeKind.isVariable) :
    t.kindAbove? id = some .typeBody ∨ t.isLocalVariable id := by
  obtain ⟨kind, owner, ownerKind, hkind, hisVariable, howner, hownerKind, hstands⟩ :=
    ht.standsIn_of_any hl rfl hvariable
  have habove : (t.parent? id).bind t.kind? = some ownerKind := by
    rw [howner, Option.bind_some, hownerKind]
  unfold kindAbove? isLocalVariable
  rw [hkind, habove]
  cases kind <;> simp_all [NodeKind.isVariable, NodeKind.StandsIn]
  rcases hstands with rfl | rfl | rfl | rfl <;> simp

/-- Read upward from each node, what every node holds gives the place of every node. -/
theorem Conforms.obeysSchema (ht : t.Conforms) (hl : t.Linked) : t.ObeysSchema where
  linked := hl
  holds := ht _ _
  stands := ht.standsIn hl
  ownBody := ht.ownBody
  ofEnum := ht.ofEnum hl
  ofOwner := ht.ofOwner hl
  ofBody := ht.ofBody hl

end SyntaxTree

/-- Whatever tokens a compilation unit is read from, its tree obeys the schema at every node. -/
theorem Parser.obeysSchema_of_next {p : Parser} {t : SyntaxTree} (h : p.next.1 = .ok t) :
    t.ObeysSchema := by
  obtain ⟨hgrown, hconforms⟩ := conforms_of_next h
  exact hconforms.obeysSchema hgrown.linked

/-- An enum whose constant has an anonymous class in its arguments and a body, with a constructor
that holds a `try` statement around a loop. -/
def workshopSource : String :=
  "enum E \x7b A(new Object() \x7b int x; \x7d) \x7b int y; \x7d; E(int z) \x7b try \x7b " ++
    "for (int i = 0; ; ) ; \x7d catch (T e) \x7b\x7d \x7d \x7d"

/-- The tree of this text has nineteen nodes, each of which is where it may be. -/
theorem obeysSchema_workshopSource :
    ∃ t, SyntaxTree.ofSource workshopSource = .ok t ∧ t.size = 19 ∧ t.ObeysSchema := by
  have hread : (SyntaxTree.ofSource workshopSource).toOption.any fun t => t.size = 19 := by
    decide +kernel
  obtain ⟨t, ht, hsize⟩ := exists_ok_of_any hread
  exact ⟨t, ht, of_decide_eq_true hsize, Parser.obeysSchema_of_next ht⟩

end FieldShadow
