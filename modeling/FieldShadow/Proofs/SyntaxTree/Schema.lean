import Mathlib.Data.List.Basic
import FieldShadow.Proofs.SyntaxTree.Growth
import FieldShadow.SyntaxTree.Outline

/-!
# The schema of a syntax tree

Which kinds of nodes may stand below a node (`NodeKind.Holds`), said of outlines and of trees.
Grafting turns the one into the other: the tree of outlines that conform, below a compilation unit,
conforms at every node (`SyntaxTree.conforms_ofOutlines`).
-/

namespace FieldShadow

/-! ## What a node may hold -/

namespace NodeKind

/-- A class, an interface, an annotation type or an enum. -/
def isType : NodeKind → Bool
  | .classDef .. | .interfaceDef .. | .annotationDef .. | .enumDef .. => true
  | _ => false

/-- An enum. -/
def isEnum : NodeKind → Bool
  | .enumDef .. => true
  | _ => false

/-- A constant of an enum. -/
def isEnumConstant : NodeKind → Bool
  | .enumConstant _ => true
  | _ => false

/-- An anonymous class. -/
def isAnonymousClass : NodeKind → Bool
  | .anonymousClass _ => true
  | _ => false

/-- A variable, be it a field or local. -/
def isVariable : NodeKind → Bool
  | .variableDef .. => true
  | _ => false

/-- A parameter. -/
def isParameter : NodeKind → Bool
  | .parameterDef .. => true
  | _ => false

/-- What stands in a type body. The constants of an enum do not count. -/
def isMember : NodeKind → Bool
  | .variableDef .. | .methodDef .. | .constructorDef .. | .staticInit | .instanceInit => true
  | kind => kind.isType

/-- What a statement leaves in the block that it stands in. -/
def isStatementPart : NodeKind → Bool
  | .block | .variableDef .. | .anonymousClass _ | .forInit | .forEachClause | .catchClause => true
  | kind => kind.isType

/-- A type may stand among statements. -/
theorem isStatementPart_of_isType {kind : NodeKind} (h : kind.isType) : kind.isStatementPart := by
  cases kind <;> simp_all [isType, isStatementPart]

/-- A type may stand among members. -/
theorem isMember_of_isType {kind : NodeKind} (h : kind.isType) : kind.isMember := by
  cases kind <;> simp_all [isType, isMember]

/-- An anonymous class may be left by a statement. -/
theorem isStatementPart_of_isAnonymousClass {kind : NodeKind} (h : kind.isAnonymousClass) :
    kind.isStatementPart := by
  cases kind <;> simp_all [isAnonymousClass, isStatementPart]

theorem isStatementPart_of_isVariable {kind : NodeKind} (h : kind.isVariable) :
    kind.isStatementPart := by
  cases kind <;> simp_all [isVariable, isStatementPart]

/-- A variable may stand among members. -/
theorem isMember_of_isVariable {kind : NodeKind} (h : kind.isVariable) : kind.isMember := by
  cases kind <;> simp_all [isVariable, isMember]

/-- Whether nodes of these kinds, in this order, may be the children of a node, given its kind and
that of the node above it. -/
def Holds (above? : Option NodeKind) (kind : NodeKind) (children : List NodeKind) : Prop :=
  match kind with
  | .compilationUnit => ∀ c ∈ children, c.isType
  | .classDef .. | .interfaceDef .. | .annotationDef .. | .enumDef .. | .anonymousClass _ =>
    children = [.typeBody]
  | .enumConstant _ =>
    ∃ classes body, children = classes ++ body ∧ (∀ c ∈ classes, c.isAnonymousClass) ∧
      (body = [] ∨ body = [.typeBody])
  | .typeBody => ∀ c ∈ children, c.isMember ∨ c.isEnumConstant ∧ above?.any isEnum
  | .methodDef .. =>
    ∃ rest, children = .parameters :: rest ∧ (rest = [.block] ∨ ∀ c ∈ rest, c.isAnonymousClass)
  | .constructorDef .. => children = [.parameters, .block]
  | .parameters => ∀ c ∈ children, c.isParameter
  | .parameterDef .. => children = []
  | .variableDef .. => ∀ c ∈ children, c.isAnonymousClass
  | .staticInit | .instanceInit => children = [.block]
  | .block => ∀ c ∈ children, c.isStatementPart
  | .forInit => children ≠ [] ∧ ∀ c ∈ children, c.isVariable
  | .forEachClause =>
    ∃ declared rest, children = declared :: rest ∧ declared.isVariable ∧
      ∀ c ∈ rest, c.isAnonymousClass
  | .catchClause => ∃ parameter, children = [parameter, .block] ∧ parameter.isParameter

end NodeKind

/-! ## Outlines -/

namespace Outline

/-- The kind of the node at the top. -/
def kind : Outline → NodeKind
  | .node kind _ _ => kind

/-- Whether all nodes of an outline hold what they may, when it stands below a node of this kind. -/
inductive Conforms : Option NodeKind → Outline → Prop
  | node {above? : Option NodeKind} {kind : NodeKind} {span : Span} {children : List Outline}
      (holds : kind.Holds above? (children.map Outline.kind))
      (below : ∀ o ∈ children, o.Conforms (some kind)) : Conforms above? (.node kind span children)

/-- Whether an outline is of such a kind and conforms wherever it stands. -/
structure Is (p : NodeKind → Prop) (o : Outline) : Prop where
  kind_is : p o.kind
  conforms : ∀ above?, o.Conforms above?

/-- An outline of one kind is of another that covers its kind; conforming is not touched by that. -/
theorem Is.imp {p q : NodeKind → Prop} {o : Outline} (h : o.Is p) (hpq : p o.kind → q o.kind) :
    o.Is q :=
  ⟨hpq h.kind_is, h.conforms⟩

/-- An outline whose children conform anywhere conforms where it may hold them. -/
theorem Conforms.of_all {p : NodeKind → Prop} {above? : Option NodeKind} {kind : NodeKind}
    {span : Span} {children : List Outline} (hchildren : ∀ o ∈ children, o.Is p)
    (holds : kind.Holds above? (children.map Outline.kind)) :
    (Outline.node kind span children).Conforms above? :=
  .node holds fun o ho => (hchildren o ho).conforms _

/-- An outline whose children conform anywhere conforms anywhere, if it may hold them. -/
theorem Is.node {p q : NodeKind → Prop} {kind : NodeKind} {span : Span} {children : List Outline}
    (hkind : q kind) (hchildren : ∀ o ∈ children, o.Is p)
    (holds : ∀ above?, kind.Holds above? (children.map Outline.kind)) :
    (Outline.node kind span children).Is q :=
  ⟨hkind, fun above? => .of_all hchildren (holds above?)⟩

/-- The kinds of a row are those that its outlines are of. -/
theorem forall_kind_of_is {p : NodeKind → Prop} {outlines : List Outline}
    (h : ∀ o ∈ outlines, o.Is p) : ∀ kind ∈ outlines.map Outline.kind, p kind := by
  intro kind hkind
  obtain ⟨o, ho, rfl⟩ := List.mem_map.mp hkind
  exact (h o ho).kind_is

end Outline

/-! ## Trees -/

namespace SyntaxTree

variable {t t₁ t₂ : SyntaxTree} {parent id : Nat} {added added' : List NodeKind}

/-- The kinds of the children of a node, in their order. -/
def childKinds (t : SyntaxTree) (id : Nat) : List NodeKind :=
  (t.children id).filterMap t.kind?

/-- The kind of the node above a node. -/
def kindAbove? (t : SyntaxTree) (id : Nat) : Option NodeKind :=
  (t.parent? id).bind t.kind?

/-- Whether a node holds what it may. -/
def ConformsAt (t : SyntaxTree) (id : Nat) : Prop :=
  ∀ kind, t.kind? id = some kind → kind.Holds (t.kindAbove? id) (t.childKinds id)

/-- Whether every node holds what it may. -/
def Conforms (t : SyntaxTree) : Prop :=
  ∀ id, t.ConformsAt id

/-- The children of a node are nodes, so each of them has its kind. -/
theorem map_kind?_children (t : SyntaxTree) (id : Nat) :
    (t.children id).map t.kind? = (t.childKinds id).map some := by
  have hsome : ∀ c ∈ t.children id, (t.kind? c).isSome := by
    intro c hc
    obtain ⟨kind, hkind⟩ := exists_kind (lt_of_mem_children hc).2
    rw [hkind]
    rfl
  unfold childKinds
  generalize t.children id = children at hsome
  induction children with
  | nil => rfl
  | cons c children ih =>
    obtain ⟨kind, hkind⟩ := Option.isSome_iff_exists.mp (hsome c List.mem_cons_self)
    rw [List.map_cons, List.filterMap_cons, hkind, List.map_cons]
    exact congrArg (some kind :: ·) (ih fun c' hc' => hsome c' (List.mem_cons_of_mem _ hc'))

/-- What grafting does below `parent`: it gives that node children of the kinds `added`, the nodes
that are new hold what they may, and all else stays. -/
structure Extends (t t' : SyntaxTree) (parent : Nat) (added : List NodeKind) : Prop where
  size_le : t.size ≤ t'.size
  kind?_eq : ∀ {id}, id < t.size → t'.kind? id = t.kind? id
  parent?_eq : ∀ {id}, id < t.size → t'.parent? id = t.parent? id
  children_eq : ∀ {id}, id < t.size → id ≠ parent → t'.children id = t.children id
  childKinds_parent : t'.childKinds parent = t.childKinds parent ++ added
  conformsAt : ∀ {id}, t.size ≤ id → t'.ConformsAt id

/-- A node that nothing was added below keeps the kinds of its children. -/
theorem Extends.childKinds_eq (h : t.Extends t₁ parent added) (hid : id < t.size)
    (hne : id ≠ parent) : t₁.childKinds id = t.childKinds id := by
  unfold childKinds
  rw [h.children_eq hid hne]
  refine List.filterMap_congr fun c hc => ?_
  exact h.kind?_eq (lt_of_mem_children hc).2

/-- A node keeps the kind above it. -/
theorem Extends.kindAbove?_eq (h : t.Extends t₁ parent added) (hid : id < t.size) :
    t₁.kindAbove? id = t.kindAbove? id := by
  unfold kindAbove?
  rw [h.parent?_eq hid]
  cases hp : t.parent? id with
  | none => rfl
  | some p => exact h.kind?_eq (Nat.lt_trans (parent?_lt hp) hid)

theorem Extends.conformsAt_of_ne (h : t.Extends t₁ parent added) (hid : id < t.size)
    (hne : id ≠ parent) (ht : t.ConformsAt id) : t₁.ConformsAt id := by
  intro kind hkind
  rw [h.kind?_eq hid] at hkind
  rw [h.kindAbove?_eq hid, h.childKinds_eq hid hne]
  exact ht kind hkind

/-- What is no node conforms, having nothing below it. -/
theorem conformsAt_of_size_le (h : t.size ≤ id) : t.ConformsAt id := by
  intro kind hkind
  have := lt_size_of_kind? hkind
  omega

theorem Extends.refl (t : SyntaxTree) (parent : Nat) : t.Extends t parent [] where
  size_le := Nat.le_refl _
  kind?_eq _ := rfl
  parent?_eq _ := rfl
  children_eq _ _ := rfl
  childKinds_parent := (List.append_nil _).symm
  conformsAt := conformsAt_of_size_le

theorem Extends.trans (hp : parent < t.size) (h : t.Extends t₁ parent added)
    (h' : t₁.Extends t₂ parent added') : t.Extends t₂ parent (added ++ added') where
  size_le := Nat.le_trans h.size_le h'.size_le
  kind?_eq hid := (h'.kind?_eq (Nat.lt_of_lt_of_le hid h.size_le)).trans (h.kind?_eq hid)
  parent?_eq hid := (h'.parent?_eq (Nat.lt_of_lt_of_le hid h.size_le)).trans (h.parent?_eq hid)
  children_eq hid hne :=
    (h'.children_eq (Nat.lt_of_lt_of_le hid h.size_le) hne).trans (h.children_eq hid hne)
  childKinds_parent := by
    rw [h'.childKinds_parent, h.childKinds_parent, List.append_assoc]
  conformsAt := by
    intro id hid
    by_cases hlt : id < t₁.size
    · exact h'.conformsAt_of_ne hlt (by omega) (h.conformsAt hid)
    · exact h'.conformsAt (Nat.le_of_not_lt hlt)

/-- A node that is added and then given all its children, and that may hold them. -/
theorem Extends.of_add {kind : NodeKind} {span : Span} (hp : parent < t.size)
    (h : (t.add parent kind span).Extends t₁ t.size added)
    (holds : kind.Holds (t.kind? parent) added) : t.Extends t₁ parent [kind] := by
  have hsize : (t.add parent kind span).size = t.size + 1 := size_add hp kind span
  have hkind : ∀ {id}, id < t.size → t₁.kind? id = t.kind? id := fun hid => by
    rw [h.kind?_eq (by omega), kind?_add hp hid]
  have hself : t₁.kind? t.size = some kind := by
    rw [h.kind?_eq (by omega), kind?_add_self hp]
  refine ⟨by have := h.size_le; omega, hkind, ?_, ?_, ?_, ?_⟩
  · intro id hid
    rw [h.parent?_eq (by omega), parent?_add hp hid]
  · intro id hid hne
    rw [h.children_eq (by omega) (by omega), children_add_ne hp hne]
  · unfold childKinds
    rw [h.children_eq (by omega) (by omega), children_add hp, List.filterMap_append]
    congr 1
    · exact List.filterMap_congr fun c hc => hkind (lt_of_mem_children hc).2
    · simp [hself]
  -- of the new nodes, the one that is added holds its children and the others are the graft's
  · intro id hid
    by_cases hne : id = t.size
    · subst hne
      intro kind' hkind'
      obtain rfl : kind = kind' := Option.some.inj (hself.symm.trans hkind')
      have habove : t₁.kindAbove? t.size = t.kind? parent := by
        unfold kindAbove?
        rw [h.parent?_eq (by omega), parent?_add_self hp]
        exact hkind hp
      have hnone : (t.add parent kind span).childKinds t.size = [] := by
        simp [childKinds, children_add_self hp]
      rw [habove, h.childKinds_parent, hnone]
      exact holds
    · exact h.conformsAt (by omega)

mutual

/-- A conforming outline that is grafted adds its kind below the parent, and all new nodes conform.
Induction along the outline: each node conforms once its children are there. -/
theorem extends_graft (t : SyntaxTree) {parent : Nat} (hp : parent < t.size) {o : Outline}
    (ho : o.Conforms (t.kind? parent)) : t.Extends (t.graft parent o) parent [o.kind] := by
  match o, ho with
  | .node kind span children, .node holds below =>
    have hsize : t.size < (t.add parent kind span).size := by
      rw [size_add hp]
      exact Nat.lt_succ_self _
    refine .of_add hp (extends_graftAll _ hsize ?_) holds
    rw [kind?_add_self hp]
    exact below

/-- A row adds its kinds in order. -/
theorem extends_graftAll (t : SyntaxTree) {parent : Nat} (hp : parent < t.size)
    {outlines : List Outline} (h : ∀ o ∈ outlines, o.Conforms (t.kind? parent)) :
    t.Extends (t.graftAll parent outlines) parent (outlines.map Outline.kind) := by
  match outlines, h with
  | [], _ => exact .refl t parent
  | o :: others, h =>
    have hfirst := extends_graft t hp (h o List.mem_cons_self)
    have hp' : parent < (t.graft parent o).size := Nat.lt_of_lt_of_le hp hfirst.size_le
    refine hfirst.trans hp (extends_graftAll _ hp' ?_)
    rw [hfirst.kind?_eq hp]
    exact fun o' ho' => h o' (List.mem_cons_of_mem _ ho')

end

mutual

/-- A grafted tree is still one that nodes were added to, below nodes it had. -/
theorem Grown.graft {t : SyntaxTree} (h : t.Grown) {parent : Nat} (hp : parent < t.size)
    (o : Outline) : (t.graft parent o).Grown ∧ t.size ≤ (t.graft parent o).size := by
  match o with
  | .node kind span children =>
    have hsize := size_add hp kind span
    have hlt : t.size < (t.add parent kind span).size := by omega
    have hall := (h.add kind span hp).graftAll hlt children
    exact ⟨hall.1, Nat.le_trans (Nat.le_of_lt hlt) hall.2⟩

theorem Grown.graftAll {t : SyntaxTree} (h : t.Grown) {parent : Nat} (hp : parent < t.size)
    (outlines : List Outline) :
    (t.graftAll parent outlines).Grown ∧ t.size ≤ (t.graftAll parent outlines).size := by
  match outlines with
  | [] => exact ⟨h, Nat.le_refl _⟩
  | o :: others =>
    have hfirst := h.graft hp o
    have hrest := hfirst.1.graftAll (Nat.lt_of_lt_of_le hp hfirst.2) others
    exact ⟨hrest.1, Nat.le_trans hfirst.2 hrest.2⟩

end

/-- The tree of some type declarations comes about by adding nodes. -/
theorem grown_ofOutlines (outlines : List Outline) : (ofOutlines outlines).Grown :=
  (Grown.empty.graftAll (by decide) outlines).1

/-- The tree of type declarations that conform holds at every node what it may. -/
theorem conforms_ofOutlines {outlines : List Outline}
    (h : ∀ o ∈ outlines, o.Is fun kind => kind.isType) : (ofOutlines outlines).Conforms := by
  have hroot : empty.kind? root = some .compilationUnit := rfl
  have hlt : root < empty.size := by decide
  have hext := extends_graftAll empty hlt fun o ho => (h o ho).conforms _
  intro id
  -- the root was there before; every other node is new
  by_cases hid : id = root
  · subst hid
    intro kind hkind
    have hkind' : some kind = some .compilationUnit := by
      rw [← hkind, ← hroot]
      exact hext.kind?_eq hlt
    obtain rfl := Option.some.inj hkind'
    show ∀ c ∈ (ofOutlines outlines).childKinds root, c.isType
    have hnone : empty.childKinds root = [] := rfl
    rw [ofOutlines, hext.childKinds_parent, hnone]
    exact Outline.forall_kind_of_is h
  · refine hext.conformsAt ?_
    show 1 ≤ id
    have : id ≠ 0 := hid
    omega

end SyntaxTree

end FieldShadow
