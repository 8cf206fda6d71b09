import FieldShadow.SyntaxTree.Kind

/-!
# Syntax trees

A syntax tree keeps its nodes in one array, and a node is named by its place in it. Nodes are only
ever added below nodes that are there, so parents come before and children after a node; the tree
carries these two facts, and walks up and down end because of them.
-/

namespace FieldShadow

/-- A node with the names of the nodes around it. Children keep source order. -/
structure Node where
  kind : NodeKind
  span : Span
  parent? : Option Nat
  children : List Nat
  deriving DecidableEq, Repr

/-- The nodes of one compilation unit. -/
structure SyntaxTree where
  nodes : Array Node
  parent_lt : ∀ (i : Nat) (h : i < nodes.size) (p : Nat), nodes[i].parent? = some p → p < i
  lt_child : ∀ (i : Nat) (h : i < nodes.size), ∀ c ∈ nodes[i].children, i < c ∧ c < nodes.size

namespace SyntaxTree

/-- The compilation unit of every tree. -/
def root : Nat := 0

/-- The tree of an empty compilation unit. -/
def empty : SyntaxTree where
  nodes := #[⟨.compilationUnit, .at ⟨1, 1⟩, none, []⟩]
  parent_lt i h p := by
    have : i = 0 := by simpa using h
    subst this
    simp
  lt_child i h c := by
    have : i = 0 := by simpa using h
    subst this
    simp

/-- The number of nodes. -/
def size (t : SyntaxTree) : Nat :=
  t.nodes.size

/-- Makes `child` the last child of the node `parent`. -/
def link (nodes : Array Node) (parent child : Nat) : Array Node :=
  nodes.modify parent fun n => { n with children := n.children ++ [child] }

/-- Linking two nodes adds none. -/
theorem size_link (nodes : Array Node) (parent child : Nat) :
    (link nodes parent child).size = nodes.size :=
  Array.size_modify

/-- Only the parent of a link is changed, by one more child. -/
theorem getElem?_link (nodes : Array Node) (parent child i : Nat) :
    (link nodes parent child)[i]? =
      if i = parent then nodes[i]?.map fun n => { n with children := n.children ++ [child] }
      else nodes[i]? := by
  rw [link, Array.getElem?_modify]
  by_cases h : i = parent
  · simp [h]
  · simp [h, Ne.symm h]

/-- A link changes no parent. -/
theorem parent?_link {nodes : Array Node} {parent child i : Nat} (h : i < nodes.size)
    (hl : i < (link nodes parent child).size) :
    (link nodes parent child)[i].parent? = nodes[i].parent? := by
  simp only [link, Array.getElem_modify]
  split <;> rfl

/-- The children behind a link are those before it and the new one. -/
theorem mem_children_link {nodes : Array Node} {parent child i c : Nat} (h : i < nodes.size)
    (hl : i < (link nodes parent child).size) (hc : c ∈ (link nodes parent child)[i].children) :
    c ∈ nodes[i].children ∨ (i = parent ∧ c = child) := by
  simp only [link, Array.getElem_modify] at hc
  split at hc
  · next hi => simpa [hi] using hc
  · exact .inl hc

/-- Adds a node as the last child of `parent`; its name is the size of the tree before. Nothing is
added below a node that is not there. -/
def add (t : SyntaxTree) (parent : Nat) (kind : NodeKind) (span : Span) : SyntaxTree :=
  if hp : parent < t.nodes.size then
    { nodes := (link t.nodes parent t.nodes.size).push ⟨kind, span, some parent, []⟩
      parent_lt := by
        intro i h p
        simp only [Array.size_push, size_link] at h
        by_cases hi : i < t.nodes.size
        · rw [Array.getElem_push_lt (by rw [size_link]; exact hi), parent?_link hi]
          exact t.parent_lt i hi p
        · obtain rfl : i = t.nodes.size := by omega
          simp only [Array.getElem_push, size_link, Nat.lt_irrefl, dite_false, Option.some.injEq]
          rintro rfl
          exact hp
      lt_child := by
        intro i h c
        have hsize : i < t.nodes.size + 1 := by simpa [size_link] using h
        by_cases hi : i < t.nodes.size
        · rw [Array.getElem_push_lt (by rw [size_link]; exact hi)]
          simp only [Array.size_push, size_link]
          intro hc
          rcases mem_children_link hi _ hc with hc | ⟨rfl, rfl⟩
          · have := t.lt_child i hi c hc
            omega
          · omega
        · obtain rfl : i = t.nodes.size := by omega
          simp [Array.getElem_push, size_link] }
  else t

/-- The node with this name. -/
def node? (t : SyntaxTree) (id : Nat) : Option Node :=
  t.nodes[id]?

/-- The kind of a node. -/
def kind? (t : SyntaxTree) (id : Nat) : Option NodeKind :=
  (t.node? id).map Node.kind

/-- The stretch of source a node stands for. -/
def span? (t : SyntaxTree) (id : Nat) : Option Span :=
  (t.node? id).map Node.span

/-- The node that a node was added below. -/
def parent? (t : SyntaxTree) (id : Nat) : Option Nat :=
  (t.node? id).bind Node.parent?

/-- The nodes that were added below a node, in that order. -/
def children (t : SyntaxTree) (id : Nat) : List Nat :=
  ((t.node? id).map Node.children).getD []

/-- One node is added. -/
theorem size_add {t : SyntaxTree} {parent : Nat} (h : parent < t.size) (kind : NodeKind)
    (span : Span) : (t.add parent kind span).size = t.size + 1 := by
  have h' : parent < t.nodes.size := h
  simp [add, h', size, size_link]

/-- Adding a node makes one new node and one new child, and changes nothing else. -/
theorem node?_add {t : SyntaxTree} {parent : Nat} (h : parent < t.size) (kind : NodeKind)
    (span : Span) (id : Nat) :
    (t.add parent kind span).node? id =
      if id = t.size then some ⟨kind, span, some parent, []⟩
      else if id = parent then
        (t.node? id).map fun n => { n with children := n.children ++ [t.size] }
      else t.node? id := by
  have h' : parent < t.nodes.size := h
  simp only [add, h', node?, dite_true, Array.getElem?_push, size_link, getElem?_link, size]
  rfl

/-- The nodes that were there keep their kinds. -/
theorem kind?_add {t : SyntaxTree} {parent id : Nat} (h : parent < t.size) (hid : id < t.size)
    (kind : NodeKind) (span : Span) : (t.add parent kind span).kind? id = t.kind? id := by
  simp only [kind?, node?_add h, Nat.ne_of_lt hid, if_false]
  split
  · rw [Option.map_map]
    rfl
  · rfl

theorem parent?_add {t : SyntaxTree} {parent id : Nat} (h : parent < t.size) (hid : id < t.size)
    (kind : NodeKind) (span : Span) : (t.add parent kind span).parent? id = t.parent? id := by
  simp only [parent?, node?_add h, Nat.ne_of_lt hid, if_false]
  split
  · rw [Option.bind_map]
    rfl
  · rfl

/-- The parent of the new node has it as its last child. -/
theorem children_add {t : SyntaxTree} {parent : Nat} (h : parent < t.size) (kind : NodeKind)
    (span : Span) : (t.add parent kind span).children parent = t.children parent ++ [t.size] := by
  obtain ⟨n, hn⟩ : ∃ n, t.node? parent = some n := ⟨_, Array.getElem?_eq_getElem h⟩
  simp [children, node?_add h, Nat.ne_of_lt h, hn]

/-- A parent was there before its node. -/
theorem parent?_lt {t : SyntaxTree} {id p : Nat} (h : t.parent? id = some p) : p < id := by
  simp only [parent?, node?, Option.bind_eq_some_iff] at h
  obtain ⟨n, hn, hp⟩ := h
  obtain ⟨hi, rfl⟩ := Array.getElem?_eq_some_iff.1 hn
  exact t.parent_lt id hi p hp

/-- A child came behind its node. -/
theorem lt_of_mem_children {t : SyntaxTree} {id c : Nat} (h : c ∈ t.children id) :
    id < c ∧ c < t.size := by
  simp only [children, node?] at h
  by_cases hi : id < t.nodes.size
  · rw [Array.getElem?_eq_getElem hi] at h
    exact t.lt_child id hi c (by simpa using h)
  · simp [Array.getElem?_eq_none (Nat.le_of_not_lt hi)] at h

/-- The nodes above a node, innermost first. -/
def ancestors (t : SyntaxTree) (id : Nat) : List Nat :=
  match _h : t.parent? id with
  | none => []
  | some p => p :: t.ancestors p
termination_by id
decreasing_by exact parent?_lt ‹_›

/-- The kinds of the nodes above a node, innermost first. -/
def ancestorKinds (t : SyntaxTree) (id : Nat) : List NodeKind :=
  (t.ancestors id).filterMap t.kind?

/-- The member list of a type or of an enum constant, which need not have one. -/
def typeBody? (t : SyntaxTree) (id : Nat) : Option Nat :=
  (t.children id).find? fun c => t.kind? c = some .typeBody

/-- Whether a node sits in the body of an interface or of an annotation type. A class, an enum or
an anonymous class that is met first on the way up ends the search. -/
def inInterfaceBody (t : SyntaxTree) (id : Nat) : Bool :=
  let deciding : NodeKind → Option Bool
    | .classDef .. | .enumDef .. | .anonymousClass _ => some false
    | .interfaceDef .. | .annotationDef .. => some true
    | _ => none
  ((t.ancestorKinds id).findSome? deciding).getD false

/-- Whether a node is a variable of a block or of a `for` header, or the parameter of a `catch`. -/
def isLocalVariable (t : SyntaxTree) (id : Nat) : Bool :=
  match t.kind? id, (t.parent? id).bind t.kind? with
  | some (.variableDef ..), some .block => true
  | some (.variableDef ..), some .forInit => true
  | some (.variableDef ..), some .forEachClause => true
  | some (.parameterDef ..), some .catchClause => true
  | _, _ => false

end SyntaxTree

end FieldShadow
