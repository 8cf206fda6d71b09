import FieldShadow.SyntaxTree.Walk

/-!
# Trees that grow node by node

A tree that starts as an empty compilation unit and gets one node after the other, each below a
node that is there, is `Grown`. Such a tree is `Linked`: its two ways to say what lies below what
agree. So the nodes above a node form one chain down to the root (`ancestors_eq_append`), and a walk
from the root comes past every node once (`mem_preorder_root`, `nodup_preorder`).

All of this is carried by the order of the numbers: a node is added below one that is there, so its
parent has a smaller number and its children have larger ones. Going up ends and going down ends,
and inductions over trees are inductions on the distance to the size of the tree
(`below_induction`).
-/

namespace FieldShadow.SyntaxTree

variable {t : SyntaxTree}

/-- The trees that come about by adding nodes below nodes that are there, in any order. -/
inductive Grown : SyntaxTree → Prop
  | empty : Grown empty
  | add {t : SyntaxTree} {parent : Nat} (kind : NodeKind) (span : Span) (grown : Grown t)
      (there : parent < t.size) : Grown (t.add parent kind span)

/-- The lists of children and the links to parents say the same, every node but the root has a
parent, and children stand in the order in which they were added. -/
structure Linked (t : SyntaxTree) : Prop where
  kind_root : t.kind? root = some .compilationUnit
  parent_root : t.parent? root = none
  mem_children : ∀ p c, c ∈ t.children p ↔ t.parent? c = some p
  exists_parent : ∀ c, c ≠ root → c < t.size → ∃ p, t.parent? c = some p
  sorted : ∀ p, (t.children p).Pairwise (· < ·)

/-! ## What adding a node changes -/

/-- There is no node with the number of nodes or above. -/
theorem node?_of_size_le {id : Nat} (h : t.size ≤ id) : t.node? id = none :=
  Array.getElem?_eq_none h

/-- What has a kind is a node. -/
theorem lt_size_of_kind? {id : Nat} {kind : NodeKind} (h : t.kind? id = some kind) :
    id < t.size := by
  refine Nat.lt_of_not_le fun hid => ?_
  simp [kind?, node?_of_size_le hid] at h

/-- What has a parent is a node. -/
theorem lt_size_of_parent? {id p : Nat} (h : t.parent? id = some p) : id < t.size := by
  refine Nat.lt_of_not_le fun hid => ?_
  simp [parent?, node?_of_size_le hid] at h

/-- Every node has a kind. -/
theorem exists_kind {id : Nat} (h : id < t.size) : ∃ kind, t.kind? id = some kind := by
  simp only [kind?, node?]
  rw [Array.getElem?_eq_getElem h]
  exact ⟨_, rfl⟩

/-- What is no node has no children. -/
theorem children_of_size_le {id : Nat} (h : t.size ≤ id) : t.children id = [] := by
  simp [children, node?_of_size_le h]

theorem kind?_add_self {parent : Nat} (h : parent < t.size) (kind : NodeKind) (span : Span) :
    (t.add parent kind span).kind? t.size = some kind := by
  simp [kind?, node?_add h]

theorem parent?_add_self {parent : Nat} (h : parent < t.size) (kind : NodeKind) (span : Span) :
    (t.add parent kind span).parent? t.size = some parent := by
  simp [parent?, node?_add h]

theorem children_add_self {parent : Nat} (h : parent < t.size) (kind : NodeKind) (span : Span) :
    (t.add parent kind span).children t.size = [] := by
  simp [children, node?_add h]

/-- A node other than the parent keeps its children. -/
theorem children_add_ne {parent id : Nat} (h : parent < t.size) (hid : id ≠ parent)
    (kind : NodeKind) (span : Span) :
    (t.add parent kind span).children id = t.children id := by
  by_cases hs : id = t.size
  · subst hs
    rw [children_add_self h, children_of_size_le (Nat.le_refl _)]
  · simp [children, node?_add h, hs, hid]

/-- A node other than the new one keeps its parent. -/
theorem parent?_add_ne {parent id : Nat} (h : parent < t.size) (hid : id ≠ t.size)
    (kind : NodeKind) (span : Span) : (t.add parent kind span).parent? id = t.parent? id := by
  by_cases hlt : id < t.size
  · exact parent?_add h hlt kind span
  · have hle : t.size + 1 ≤ id := by omega
    simp only [parent?]
    rw [node?_of_size_le (by rw [size_add h]; exact hle), node?_of_size_le (by omega)]

/-- The tree of the root alone is linked. -/
theorem Linked.empty : Linked SyntaxTree.empty := by
  have hchildren : ∀ p, SyntaxTree.empty.children p = [] := by
    intro p
    match p with
    | 0 => rfl
    | p + 1 => exact children_of_size_le (Nat.le_add_left 1 p)
  have hparent : ∀ c, SyntaxTree.empty.parent? c = none := by
    intro c
    match c with
    | 0 => rfl
    | c + 1 => simp [parent?, node?, SyntaxTree.empty]
  refine ⟨rfl, rfl, fun p c => by simp [hchildren, hparent], ?_, fun p => by simp [hchildren]⟩
  intro c hc hlt
  have : c < 1 := hlt
  exact absurd (show c = 0 by omega) hc

/-- A tree stays linked when a node is added below one that it has: both sides of the new link are
made at once. -/
theorem Linked.add {parent : Nat} (h : Linked t) (kind : NodeKind) (span : Span)
    (there : parent < t.size) : Linked (t.add parent kind span) := by
  have hroot : root < t.size := lt_size_of_kind? h.kind_root
  refine ⟨?_, ?_, ?_, ?_, ?_⟩
  · rw [kind?_add there hroot, h.kind_root]
  · rw [parent?_add there hroot, h.parent_root]
  · intro p c
    -- only the new node and its parent have other links than before
    by_cases hc : c = t.size
    · subst hc
      rw [parent?_add_self there, Option.some.injEq]
      by_cases hp : p = parent
      · subst hp
        simp [children_add there]
      · rw [children_add_ne there hp]
        constructor
        · exact fun hmem => absurd (lt_of_mem_children hmem).2 (Nat.lt_irrefl _)
        · exact fun heq => absurd heq.symm hp
    · rw [parent?_add_ne there hc, ← h.mem_children]
      by_cases hp : p = parent
      · subst hp
        simp [children_add there, hc]
      · rw [children_add_ne there hp]
  · intro c hc hlt
    rw [size_add there] at hlt
    by_cases hs : c = t.size
    · exact ⟨parent, hs ▸ parent?_add_self there kind span⟩
    · rw [parent?_add_ne there hs]
      exact h.exists_parent c hc (by omega)
  · intro p
    by_cases hp : p = parent
    · subst hp
      rw [children_add there, List.pairwise_append]
      refine ⟨h.sorted p, List.pairwise_singleton _ _, ?_⟩
      intro a ha b hb
      rw [List.mem_singleton.mp hb]
      exact (lt_of_mem_children ha).2
    · rw [children_add_ne there hp]
      exact h.sorted p

/-- In a grown tree the two ways to say what lies below what agree. -/
theorem Grown.linked (h : Grown t) : Linked t := by
  induction h with
  | empty => exact .empty
  | add kind span _ there ih => exact ih.add kind span there

/-! ## The chain above a node -/

/-- The chain above a node is its parent and the chain above that. -/
theorem ancestors_of_parent? {id p : Nat} (h : t.parent? id = some p) :
    t.ancestors id = p :: t.ancestors p := by
  rw [ancestors]
  split
  · next heq => simp [h] at heq
  · next q heq =>
    rw [h, Option.some.injEq] at heq
    rw [heq]

/-- Without a parent there is no chain. -/
theorem ancestors_of_parent?_none {id : Nat} (h : t.parent? id = none) : t.ancestors id = [] := by
  rw [ancestors]
  split
  · rfl
  · next q heq => simp [h] at heq

/-- Nothing is above the root. -/
theorem Linked.ancestors_root (h : Linked t) : t.ancestors root = [] :=
  ancestors_of_parent?_none h.parent_root

/-- The chain above a child begins with the node. -/
theorem Linked.ancestors_child (h : Linked t) {p c : Nat} (hc : c ∈ t.children p) :
    t.ancestors c = p :: t.ancestors p :=
  ancestors_of_parent? ((h.mem_children p c).mp hc)

/-- What lies above a node is an ancestor with all that lies above this, behind nodes that lie
between the two. -/
theorem ancestors_eq_append {id a : Nat} (h : a ∈ t.ancestors id) :
    ∃ inner, t.ancestors id = inner ++ a :: t.ancestors a ∧ ∀ b ∈ inner, a ∈ t.ancestors b := by
  induction id using Nat.strongRecOn with
  | _ id ih =>
    cases hp : t.parent? id with
    | none => simp [ancestors_of_parent?_none hp] at h
    | some p =>
      rw [ancestors_of_parent? hp] at h ⊢
      rcases List.mem_cons.mp h with rfl | hmem
      · exact ⟨[], rfl, by simp⟩
      · obtain ⟨inner, heq, hinner⟩ := ih p (parent?_lt hp) hmem
        refine ⟨p :: inner, by rw [heq, List.cons_append], ?_⟩
        intro b hb
        rcases List.mem_cons.mp hb with rfl | hb
        · exact hmem
        · exact hinner b hb

/-- What is above a node was there before it. -/
theorem lt_of_mem_ancestors {id a : Nat} (h : a ∈ t.ancestors id) : a < id := by
  induction id using Nat.strongRecOn with
  | _ id ih =>
    cases hp : t.parent? id with
    | none => simp [ancestors_of_parent?_none hp] at h
    | some p =>
      rw [ancestors_of_parent? hp] at h
      have hlt := parent?_lt hp
      rcases List.mem_cons.mp h with rfl | hmem
      · exact hlt
      · exact Nat.lt_trans (ih p hlt hmem) hlt

/-- Names fall on the way up. -/
theorem sorted_ancestors (t : SyntaxTree) (id : Nat) : (t.ancestors id).Pairwise (· > ·) := by
  induction id using Nat.strongRecOn with
  | _ id ih =>
    cases hp : t.parent? id with
    | none => simp [ancestors_of_parent?_none hp]
    | some p =>
      rw [ancestors_of_parent? hp, List.pairwise_cons]
      exact ⟨fun a ha => lt_of_mem_ancestors ha, ih p (parent?_lt hp)⟩

theorem mem_ancestors_trans {id a b : Nat} (ha : a ∈ t.ancestors id) (hb : b ∈ t.ancestors a) :
    b ∈ t.ancestors id := by
  obtain ⟨inner, heq, -⟩ := ancestors_eq_append ha
  simp [heq, hb]

/-- Of two nodes above a third the smaller one lies above the other. -/
theorem mem_ancestors_of_lt {id a b : Nat} (ha : a ∈ t.ancestors id) (hb : b ∈ t.ancestors id)
    (hlt : a < b) : a ∈ t.ancestors b := by
  obtain ⟨inner, heq, hinner⟩ := ancestors_eq_append ha
  rw [heq] at hb
  rcases List.mem_append.mp hb with hb | hb
  · exact hinner b hb
  · rcases List.mem_cons.mp hb with rfl | hb
    · exact absurd hlt (Nat.lt_irrefl _)
    · exact absurd (lt_of_mem_ancestors hb) (by omega)

/-- The root is above every other node. -/
theorem Linked.root_mem_ancestors (h : Linked t) {id : Nat} (hid : id ≠ root) (hlt : id < t.size) :
    root ∈ t.ancestors id := by
  induction id using Nat.strongRecOn with
  | _ id ih =>
    obtain ⟨p, hp⟩ := h.exists_parent id hid hlt
    rw [ancestors_of_parent? hp]
    by_cases hroot : p = root
    · simp [hroot]
    · have hplt := parent?_lt hp
      exact List.mem_cons_of_mem _ (ih p hplt hroot (by omega))

/-- The way down from an ancestor to a node begins with a child of the ancestor. -/
theorem Linked.exists_child (h : Linked t) {id a : Nat} (ha : a ∈ t.ancestors id) :
    ∃ c ∈ t.children a, c = id ∨ c ∈ t.ancestors id := by
  induction id using Nat.strongRecOn with
  | _ id ih =>
    cases hp : t.parent? id with
    | none => simp [ancestors_of_parent?_none hp] at ha
    | some p =>
      rw [ancestors_of_parent? hp] at ha ⊢
      rcases List.mem_cons.mp ha with rfl | ha
      · exact ⟨id, (h.mem_children a id).mpr hp, .inl rfl⟩
      · obtain ⟨c, hc, hcp⟩ := ih p (parent?_lt hp) ha
        exact ⟨c, hc, .inr (List.mem_cons.mpr hcp)⟩

/-- A node lies below one child of an ancestor only. -/
theorem Linked.eq_of_mem_children (h : Linked t) {a b c id : Nat} (hb : b ∈ t.children a)
    (hc : c ∈ t.children a) (hbid : b ∈ t.ancestors id) (hcid : c ∈ t.ancestors id) : b = c := by
  have hnot : ∀ {x y : Nat}, x ∈ t.children a → y ∈ t.children a → x ∉ t.ancestors y := by
    intro x y hx hy hmem
    rw [h.ancestors_child hy] at hmem
    have hlt := (lt_of_mem_children hx).1
    rcases List.mem_cons.mp hmem with rfl | hmem
    · omega
    · exact absurd (lt_of_mem_ancestors hmem) (by omega)
  rcases Nat.lt_trichotomy b c with hlt | heq | hlt
  · exact absurd (mem_ancestors_of_lt hbid hcid hlt) (hnot hb hc)
  · exact heq
  · exact absurd (mem_ancestors_of_lt hcid hbid hlt) (hnot hc hb)

/-! ## Walks -/

/-- A walk is the node and the walks below its children, without the bound that the recursion
carries. -/
theorem preorder_eq (t : SyntaxTree) (node : Nat) :
    t.preorder node = node :: (t.children node).flatMap t.preorder := by
  rw [preorder]
  simp

/-- The events of a node stand around those of its children. -/
theorem eventsFrom_eq {node : Nat} {kind : NodeKind} (h : t.kind? node = some kind) :
    t.eventsFrom node = kind.eventsAround node ((t.children node).flatMap t.eventsFrom) := by
  rw [eventsFrom]
  simp [h]

/-- Induction from the leaves of a tree to its root. -/
theorem below_induction (t : SyntaxTree) {motive : Nat → Prop}
    (step : ∀ node, (∀ c ∈ t.children node, motive c) → motive node) (node : Nat) :
    motive node := by
  -- children have greater names than their parent, so the names that are left get fewer
  induction hk : t.size - node using Nat.strongRecOn generalizing node with
  | _ k ih =>
    refine step node fun c hc => ih (t.size - c) ?_ c rfl
    have := lt_of_mem_children hc
    omega

/-- A walk from a node comes past the node and all that lies below it. -/
theorem Linked.mem_preorder (h : Linked t) (node m : Nat) :
    m ∈ t.preorder node ↔ m = node ∨ node ∈ t.ancestors m := by
  induction node using t.below_induction with
  | step node ih =>
    rw [preorder_eq, List.mem_cons, List.mem_flatMap]
    refine or_congr_right ⟨?_, ?_⟩
    · rintro ⟨c, hc, hm⟩
      have hanc := h.ancestors_child hc
      rcases (ih c hc).mp hm with rfl | hm
      · simp [hanc]
      · exact mem_ancestors_trans hm (by simp [hanc])
    · intro hm
      obtain ⟨c, hc, hcm⟩ := h.exists_child hm
      exact ⟨c, hc, (ih c hc).mpr (hcm.imp Eq.symm id)⟩

/-- A walk from the root comes past every node. -/
theorem Linked.mem_preorder_root (h : Linked t) (m : Nat) :
    m ∈ t.preorder root ↔ m < t.size := by
  rw [h.mem_preorder]
  constructor
  · rintro (rfl | hm)
    · exact lt_size_of_kind? h.kind_root
    · cases hp : t.parent? m with
      | none => simp [ancestors_of_parent?_none hp] at hm
      | some p => exact lt_size_of_parent? hp
  · intro hm
    by_cases hroot : m = root
    · exact .inl hroot
    · exact .inr (h.root_mem_ancestors hroot hm)

/-- What lies below one child does not lie below another. -/
theorem Linked.disjoint_preorder (h : Linked t) {node c d m : Nat} (hc : c ∈ t.children node)
    (hd : d ∈ t.children node) (hlt : c < d) (hm : m ∈ t.preorder c) : m ∉ t.preorder d := by
  intro hm'
  have habove : c ∈ t.ancestors d := by
    rcases (h.mem_preorder c m).mp hm with rfl | hc'
    · rcases (h.mem_preorder d m).mp hm' with rfl | hd'
      · exact absurd hlt (Nat.lt_irrefl _)
      · exact absurd (lt_of_mem_ancestors hd') (by omega)
    · rcases (h.mem_preorder d m).mp hm' with rfl | hd'
      · exact hc'
      · exact mem_ancestors_of_lt hc' hd' hlt
  -- the nodes above `d` are its parent and what lies above that, and `c` is none of these
  rw [h.ancestors_child hd] at habove
  have hnode := (lt_of_mem_children hc).1
  rcases List.mem_cons.mp habove with rfl | habove
  · omega
  · exact absurd (lt_of_mem_ancestors habove) (by omega)

/-- A walk comes past no node twice. -/
theorem Linked.nodup_preorder (h : Linked t) (node : Nat) : (t.preorder node).Nodup := by
  induction node using t.below_induction with
  | step node ih =>
    rw [preorder_eq, List.nodup_cons]
    constructor
    · intro hmem
      obtain ⟨c, hc, hm⟩ := List.mem_flatMap.mp hmem
      have hlt := (lt_of_mem_children hc).1
      rcases (h.mem_preorder c node).mp hm with rfl | hm
      · omega
      · exact absurd (lt_of_mem_ancestors hm) (by omega)
    · refine List.pairwise_flatMap.mpr ⟨ih, ?_⟩
      refine (h.sorted node).imp_of_mem ?_
      intro c d hc hd hlt x hx y hy heq
      exact h.disjoint_preorder hc hd hlt hx (heq ▸ hy)

end FieldShadow.SyntaxTree
