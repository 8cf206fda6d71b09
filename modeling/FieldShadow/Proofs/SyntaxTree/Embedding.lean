import FieldShadow.Proofs.SyntaxTree.Schema

/-!
# One tree behind another

The tree of two rows of type declarations is that of the first with the nodes of the second added
behind (`appended_ofOutlines`). Either tree is found in it under other names (`Embeds`): the nodes
of the first keep theirs, those of the second are counted on from there. Only the root is shared, so
below it everything that can be asked of a node has the same answer in both trees.
-/

namespace FieldShadow

namespace Outline

mutual

/-- An outline in another place of the text. -/
def moved (move : Span → Span) : Outline → Outline
  | .node kind span children => .node kind (move span) (movedAll move children)

/-- Outlines in another place of the text. -/
def movedAll (move : Span → Span) : List Outline → List Outline
  | [] => []
  | o :: os => moved move o :: movedAll move os

end

variable {move : Span → Span}

@[simp] theorem moved_node (kind : NodeKind) (span : Span) (children : List Outline) :
    (Outline.node kind span children).moved move =
      .node kind (move span) (movedAll move children) := by
  rw [moved]

@[simp] theorem moved_leaf (kind : NodeKind) (span : Span) :
    (Outline.leaf kind span).moved move = .leaf kind (move span) := by
  simp [leaf, movedAll]

@[simp] theorem movedAll_nil : movedAll move [] = [] := by
  rw [movedAll]

@[simp] theorem movedAll_cons (o : Outline) (os : List Outline) :
    movedAll move (o :: os) = o.moved move :: movedAll move os := by
  rw [movedAll]

@[simp] theorem movedAll_append (os os' : List Outline) :
    movedAll move (os ++ os') = movedAll move os ++ movedAll move os' := by
  induction os with
  | nil => simp
  | cons o os ih => simp [ih]

mutual

/-- Stretches that are left where they are leave the outline as it is. -/
theorem moved_id (o : Outline) : o.moved id = o := by
  match o with
  | .node kind span children => rw [moved_node, movedAll_id, id]

theorem movedAll_id (os : List Outline) : movedAll id os = os := by
  match os with
  | [] => exact movedAll_nil
  | o :: os => rw [movedAll_cons, moved_id, movedAll_id]

end

end Outline

/-- A node under other names and in another place of the text. -/
def Node.moved (φ : Nat → Nat) (move : Span → Span) (n : Node) : Node :=
  ⟨n.kind, move n.span, n.parent?.map φ, n.children.map φ⟩

namespace SyntaxTree

/-! ## Embeddings -/

/-- A tree that is found in another under other names. The roots may differ in their children. -/
structure Embeds (t u : SyntaxTree) (φ : Nat → Nat) (move : Span → Span) : Prop where
  injective : ∀ {a b : Nat}, φ a = φ b → a = b
  root : φ root = root
  kind_root : t.kind? SyntaxTree.root = some .compilationUnit
  kind_root' : u.kind? SyntaxTree.root = some .compilationUnit
  node : ∀ {id : Nat} {n : Node}, id ≠ SyntaxTree.root → t.node? id = some n →
    u.node? (φ id) = some (n.moved φ move)

namespace Embeds

variable {t u : SyntaxTree} {φ : Nat → Nat} {move : Span → Span} {id : Nat}

/-- The image of a node has its kind, its stretch moved, and its links renamed. -/
theorem node?_eq (h : t.Embeds u φ move) (hid : id ≠ SyntaxTree.root) (hlt : id < t.size) :
    u.node? (φ id) = (t.node? id).map (Node.moved φ move) := by
  have hnode : t.node? id = some t.nodes[id] := Array.getElem?_eq_getElem hlt
  rw [h.node hid hnode, hnode]
  rfl

/-- The image of a node, also of the root, has its kind. -/
theorem kind?_eq (h : t.Embeds u φ move) (hlt : id < t.size) :
    u.kind? (φ id) = t.kind? id := by
  by_cases hid : id = SyntaxTree.root
  · rw [hid, h.root, h.kind_root', h.kind_root]
  · rw [kind?, h.node?_eq hid hlt, Option.map_map]
    rfl

/-- The image of a node other than the root has the images of its children and no others. -/
theorem children_eq (h : t.Embeds u φ move) (hid : id ≠ SyntaxTree.root) (hlt : id < t.size) :
    u.children (φ id) = (t.children id).map φ := by
  have hnode : t.node? id = some t.nodes[id] := Array.getElem?_eq_getElem hlt
  rw [children, h.node hid hnode, children, hnode]
  rfl

/-- The root has no parent. -/
theorem parent?_root (t : SyntaxTree) : t.parent? SyntaxTree.root = none := by
  cases hp : t.parent? SyntaxTree.root with
  | none => rfl
  | some p => exact absurd (parent?_lt hp) (Nat.not_lt_zero p)

/-- The image of a node has the image of its parent. -/
theorem parent?_eq (h : t.Embeds u φ move) (hlt : id < t.size) :
    u.parent? (φ id) = (t.parent? id).map φ := by
  by_cases hid : id = SyntaxTree.root
  · rw [hid, h.root, parent?_root, parent?_root]
    rfl
  · have hnode : t.node? id = some t.nodes[id] := Array.getElem?_eq_getElem hlt
    rw [parent?, h.node hid hnode, parent?, hnode]
    rfl

/-- The ancestors of an image are the images of the ancestors, by the recursion up the tree. -/
theorem ancestors_eq (h : t.Embeds u φ move) (hlt : id < t.size) :
    u.ancestors (φ id) = (t.ancestors id).map φ := by
  induction id using Nat.strongRecOn with
  | _ id ih =>
    have hparent := h.parent?_eq hlt
    cases hp : t.parent? id with
    | none =>
      rw [hp] at hparent
      rw [ancestors_of_parent?_none hp, ancestors_of_parent?_none hparent]
      rfl
    | some p =>
      rw [hp] at hparent
      have hup := parent?_lt hp
      rw [ancestors_of_parent? hp, ancestors_of_parent? hparent, ih p hup (Nat.lt_trans hup hlt)]
      rfl

theorem ancestorKinds_eq (h : t.Embeds u φ move) (hlt : id < t.size) :
    u.ancestorKinds (φ id) = t.ancestorKinds id := by
  rw [ancestorKinds, h.ancestors_eq hlt, List.filterMap_map]
  exact List.filterMap_congr fun a ha =>
    h.kind?_eq (Nat.lt_trans (lt_of_mem_ancestors ha) hlt)

/-- The walk below an image is the image of the walk, by induction down the tree. -/
theorem preorder_eq (h : t.Embeds u φ move) (hid : id ≠ SyntaxTree.root) (hlt : id < t.size) :
    u.preorder (φ id) = (t.preorder id).map φ := by
  induction id using t.below_induction with
  | step id ih =>
    rw [SyntaxTree.preorder_eq, SyntaxTree.preorder_eq, h.children_eq hid hlt, List.map_cons,
      List.map_flatMap, List.flatMap_map]
    congr 1
    refine List.flatMap_congr fun c hc => ?_
    have hc' := lt_of_mem_children hc
    exact ih c hc (Nat.ne_of_gt (Nat.lt_of_le_of_lt (Nat.zero_le _) hc'.1)) hc'.2

end Embeds

/-! ## Trees with nodes behind them -/

/-- The name of a node behind a tree with `n` nodes. -/
def nameBehind (n id : Nat) : Nat :=
  if id = root then root else n - 1 + id

/-- The root of both trees is the same node. -/
theorem nameBehind_root (n : Nat) : nameBehind n root = root :=
  if_pos rfl

/-- Any other node is numbered behind those of the front tree. -/
theorem nameBehind_of_ne {n id : Nat} (h : id ≠ root) : nameBehind n id = n - 1 + id :=
  if_neg h

/-- Nodes with the same number behind a tree are the same. -/
theorem nameBehind_injective {n a b : Nat} (h : nameBehind n a = nameBehind n b) : a = b := by
  unfold nameBehind root at h
  by_cases ha : a = 0 <;> by_cases hb : b = 0
  · rw [ha, hb]
  · rw [if_pos ha, if_neg hb] at h
    omega
  · rw [if_neg ha, if_pos hb] at h
    omega
  · rw [if_neg ha, if_neg hb] at h
    omega

/-- Behind a tree that has a root the names are new. -/
theorem le_nameBehind {n id : Nat} (hn : 0 < n) (h : id ≠ root) : n ≤ nameBehind n id := by
  rw [nameBehind_of_ne h]
  have : 0 < id := Nat.pos_of_ne_zero h
  omega

/-- A tree `u` that is the tree `front` with the nodes of the tree `t` added behind. -/
structure Appended (front t u : SyntaxTree) (move : Span → Span) : Prop where
  size : u.size = front.size - 1 + t.size
  kind_root : u.kind? root = front.kind? root
  old : ∀ {id : Nat}, id ≠ root → id < front.size → u.node? id = front.node? id
  new : ∀ {id : Nat} {n : Node}, id ≠ root → t.node? id = some n →
    u.node? (nameBehind front.size id) = some (n.moved (nameBehind front.size) move)
  children_root : u.children root =
    front.children root ++ (t.children root).map (nameBehind front.size)

namespace Appended

variable {front t u : SyntaxTree} {move : Span → Span}

/-- The front tree with nothing behind it. -/
theorem empty (hfront : 0 < front.size) (move : Span → Span) :
    Appended front empty front move where
  size := by
    rw [show SyntaxTree.empty.size = 1 from rfl]
    omega
  kind_root := rfl
  old _ _ := rfl
  new {id n} hid hn := by
    obtain ⟨hlt, -⟩ := Array.getElem?_eq_some_iff.mp hn
    exact absurd (Nat.lt_one_iff.mp hlt) hid
  children_root := (List.append_nil _).symm

/-- A node that is added to the one is added to the other, below the image of its parent. The parent
is named in the bound, since only nodes that exist have an image. -/
theorem add (h : Appended front t u move) (hfront : 0 < front.size) {parent : Nat}
    (hparent : parent < t.size) (kind : NodeKind) (span : Span) :
    Appended front (t.add parent kind span)
      (u.add (nameBehind front.size parent) kind (move span)) move := by
  have hsize := h.size
  have hpos : 0 < t.size := Nat.lt_of_le_of_lt (Nat.zero_le _) hparent
  -- the node that is added gets the next identity in both trees
  have hself : nameBehind front.size t.size = u.size := by
    rw [nameBehind_of_ne (Nat.ne_of_gt hpos), hsize]
  have hparent' : nameBehind front.size parent < u.size := by
    by_cases hroot : parent = root
    · rw [hroot, nameBehind_root]
      show 0 < u.size
      omega
    · rw [nameBehind_of_ne hroot]
      omega
  have hne {id : Nat} (hid : id ≠ t.size) : nameBehind front.size id ≠ u.size := fun heq =>
    hid (nameBehind_injective (heq.trans hself.symm))
  have hroot : root < u.size := by
    show 0 < u.size
    omega
  -- size, root, front nodes, nodes behind, and the children of the root
  refine ⟨?_, ?_, ?_, ?_, ?_⟩
  · rw [size_add hparent, size_add hparent', hsize]
    omega
  · rw [kind?_add hparent' hroot, h.kind_root]
  · intro id hid hlt
    have hself' : id ≠ u.size := by omega
    have hparent'' : id ≠ nameBehind front.size parent := by
      by_cases hroot : parent = root
      · rwa [hroot, nameBehind_root]
      · have := le_nameBehind hfront hroot
        omega
    rw [node?_add hparent', if_neg hself', if_neg hparent'', h.old hid hlt]
  · intro id n hid hn
    rw [node?_add hparent] at hn
    rw [node?_add hparent']
    by_cases hnew : id = t.size
    · rw [if_pos hnew] at hn
      obtain rfl := Option.some.inj hn
      rw [if_pos (hnew ▸ hself)]
      rfl
    · rw [if_neg hnew] at hn
      rw [if_neg (hne hnew)]
      -- of the nodes that were there only the parent changes
      by_cases hup : id = parent
      · rw [if_pos hup] at hn
        obtain ⟨n', hn', rfl⟩ := Option.map_eq_some_iff.mp hn
        rw [if_pos (congrArg _ hup), h.new hid hn']
        simp [Node.moved, hself]
      · rw [if_neg hup] at hn
        rw [if_neg fun heq => hup (nameBehind_injective heq), h.new hid hn]
  · by_cases hroot' : parent = root
    · subst hroot'
      rw [children_add hparent, List.map_append, List.map_singleton, hself, nameBehind_root,
        children_add hroot, h.children_root, List.append_assoc]
    · have hne' : root ≠ nameBehind front.size parent := by
        have := le_nameBehind hfront hroot'
        show 0 ≠ _
        omega
      rw [children_add_ne hparent (Ne.symm hroot'), children_add_ne hparent' hne', h.children_root]

mutual

/-- An outline that is grafted to the one is grafted to the other with its stretches moved. -/
theorem graft {t u : SyntaxTree} (h : Appended front t u move) (hfront : 0 < front.size)
    {parent : Nat} (hparent : parent < t.size) (o : Outline) :
    Appended front (t.graft parent o) (u.graft (nameBehind front.size parent) (o.moved move))
      move ∧ t.size ≤ (t.graft parent o).size := by
  match o with
  | .node kind span children =>
    have hsize := size_add hparent kind span
    have hpos : 0 < t.size := Nat.lt_of_le_of_lt (Nat.zero_le _) hparent
    have hself : nameBehind front.size t.size = u.size := by
      rw [nameBehind_of_ne (Nat.ne_of_gt hpos), h.size]
    have hall := (h.add hfront hparent kind span).graftAll hfront
      (show t.size < (t.add parent kind span).size by omega) children
    rw [hself] at hall
    rw [Outline.moved_node, SyntaxTree.graft, SyntaxTree.graft]
    exact ⟨hall.1, Nat.le_trans (by omega) hall.2⟩

theorem graftAll {t u : SyntaxTree} (h : Appended front t u move) (hfront : 0 < front.size)
    {parent : Nat} (hparent : parent < t.size) (os : List Outline) :
    Appended front (t.graftAll parent os)
      (u.graftAll (nameBehind front.size parent) (Outline.movedAll move os)) move ∧
      t.size ≤ (t.graftAll parent os).size := by
  match os with
  | [] =>
    rw [Outline.movedAll_nil]
    exact ⟨h, Nat.le_refl _⟩
  | o :: others =>
    have hfirst := h.graft hfront hparent o
    have hrest := hfirst.1.graftAll hfront (Nat.lt_of_lt_of_le hparent hfirst.2) others
    rw [Outline.movedAll_cons, SyntaxTree.graftAll, SyntaxTree.graftAll]
    exact ⟨hrest.1, Nat.le_trans hfirst.2 hrest.2⟩

end

/-- The tree in front is found under its own names. -/
theorem embeds_front (h : Appended front t u move)
    (hkind : front.kind? root = some .compilationUnit) : front.Embeds u id id where
  injective heq := heq
  root := rfl
  kind_root := hkind
  kind_root' := h.kind_root.trans hkind
  node {i n} hi hn := by
    have hlt : i < front.size := (Array.getElem?_eq_some_iff.mp hn).1
    have hmoved : n.moved id id = n := by simp [Node.moved]
    rw [hmoved]
    exact (h.old hi hlt).trans hn

/-- The tree behind is found under the names that were given out later. -/
theorem embeds_behind (h : Appended front t u move)
    (hkind : front.kind? root = some .compilationUnit)
    (hkind' : t.kind? root = some .compilationUnit) :
    t.Embeds u (nameBehind front.size) move where
  injective := nameBehind_injective
  root := nameBehind_root _
  kind_root := hkind'
  kind_root' := h.kind_root.trans hkind
  node := h.new

end Appended

/-- A row is grafted part by part. -/
theorem graftAll_append (t : SyntaxTree) (parent : Nat) (os os' : List Outline) :
    t.graftAll parent (os ++ os') = (t.graftAll parent os).graftAll parent os' := by
  induction os generalizing t with
  | nil => rw [List.nil_append, graftAll]
  | cons o os ih => rw [List.cons_append, graftAll, graftAll, ih]

/-- The tree of two rows of type declarations is that of the first with that of the second behind
it. -/
theorem appended_ofOutlines (os os' : List Outline) (move : Span → Span) :
    Appended (ofOutlines os) (ofOutlines os') (ofOutlines (os ++ Outline.movedAll move os'))
      move := by
  have hfront : 0 < (ofOutlines os).size :=
    lt_size_of_kind? (grown_ofOutlines os).linked.kind_root
  have hroot : root < SyntaxTree.empty.size := by decide
  have hall := (Appended.empty hfront move).graftAll hfront hroot os'
  rw [nameBehind_root, ofOutlines, ← graftAll_append] at hall
  exact hall.1

end SyntaxTree

end FieldShadow
