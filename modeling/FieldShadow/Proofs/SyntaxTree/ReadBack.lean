import FieldShadow.HiddenField.Declaration
import FieldShadow.Proofs.SyntaxTree.Schema

/-!
# Trees read back

The nested form of a tree is found in it again (`outline_ofOutlines`): grafting neither reorders
nodes nor mixes up what lies below them. So a walk comes past the nodes in the order of their
numbers (`preorder_ofOutlines`), which is that of the outlines from left to right
(`filterMap_preorder_part?`), and past the names in this order (`declaredNames_ofOutlines`).

## Shape of the argument

`Grafted t parent added u` says what hanging outlines below a node does to a tree: nodes that were
there are kept, but for the list of children of the one node, and the new ones are found below it,
numbered as a walk comes past them. Graftings compose (`Grafted.append`), and an outline is grafted
by adding its node and grafting its children below (`grafted_graft`), so the recursion of grafting
is that of the proof.

The last part is the converse. A tree whose root has the outline, and in which a walk counts, is the
one that grafting makes (`IsTreeOf.unique`): so these two facts pin down every identity, every
parent and every list of children.
-/

namespace FieldShadow

/-- The token that a variable or a parameter has its name from. Its span is that of the node. -/
def NodeKind.nameToken? (kind : NodeKind) (span : Span) : Option Lexeme :=
  kind.declares?.map fun declared => ⟨.identifier declared.1, span⟩

namespace Outline

mutual

/-- The names of the variables and parameters of an outline, each in front of those below it. -/
def names : Outline → List Lexeme
  | .node kind span children => (kind.nameToken? span).toList ++ namesAll children

/-- The names of the variables and parameters of a row of outlines. -/
def namesAll : List Outline → List Lexeme
  | [] => []
  | o :: os => names o ++ namesAll os

end

mutual

/-- The kinds and spans of the nodes of an outline, each in front of those below it. -/
def parts : Outline → List (NodeKind × Span)
  | .node kind span children => (kind, span) :: partsAll children

/-- The kinds and spans of the nodes of a row of outlines. -/
def partsAll : List Outline → List (NodeKind × Span)
  | [] => []
  | o :: os => parts o ++ partsAll os

end

@[simp] theorem parts_node (kind : NodeKind) (span : Span) (children : List Outline) :
    (Outline.node kind span children).parts = (kind, span) :: partsAll children := by
  rw [parts]

@[simp] theorem partsAll_nil : partsAll [] = [] := by
  rw [partsAll]

@[simp] theorem partsAll_cons (o : Outline) (os : List Outline) :
    partsAll (o :: os) = o.parts ++ partsAll os := by
  rw [partsAll]

/-- The parts of a single outline are its own and those below it. -/
theorem partsAll_singleton (kind : NodeKind) (span : Span) (children : List Outline) :
    partsAll [.node kind span children] = (kind, span) :: partsAll children := by
  simp

@[simp] theorem partsAll_append (os os' : List Outline) :
    partsAll (os ++ os') = partsAll os ++ partsAll os' := by
  induction os with
  | nil => simp
  | cons o os ih => simp [ih]

@[simp] theorem names_node (kind : NodeKind) (span : Span) (children : List Outline) :
    (Outline.node kind span children).names =
      (kind.nameToken? span).toList ++ namesAll children := by
  rw [names]

@[simp] theorem names_leaf (kind : NodeKind) (span : Span) :
    (Outline.leaf kind span).names = (kind.nameToken? span).toList := by
  simp [leaf, namesAll]

@[simp] theorem namesAll_nil : namesAll [] = [] := by
  rw [namesAll]

@[simp] theorem namesAll_cons (o : Outline) (os : List Outline) :
    namesAll (o :: os) = o.names ++ namesAll os := by
  rw [namesAll]

@[simp] theorem namesAll_append (os os' : List Outline) :
    namesAll (os ++ os') = namesAll os ++ namesAll os' := by
  induction os with
  | nil => simp
  | cons o os ih => simp [ih]

mutual

/-- The names are those of the nodes, in their order. -/
theorem filterMap_parts (o : Outline) :
    o.parts.filterMap (fun part => part.1.nameToken? part.2) = o.names := by
  match o with
  | .node kind span children =>
    rw [parts_node, names_node, List.filterMap_cons, filterMap_partsAll children]
    cases kind.nameToken? span <;> rfl

/-- The names in a row of outlines are the names of its parts. -/
theorem filterMap_partsAll (os : List Outline) :
    (partsAll os).filterMap (fun part => part.1.nameToken? part.2) = namesAll os := by
  match os with
  | [] => simp
  | o :: others => simp [filterMap_parts o, filterMap_partsAll others]

end

end Outline

namespace SyntaxTree

variable {t u : SyntaxTree} {id : Nat}

/-- A node with everything below it, in the nested form. -/
def outline (t : SyntaxTree) (id : Nat) : Outline :=
  let below := (t.children id).attach.map fun ⟨c, _⟩ => t.outline c
  match t.node? id with
  | none => .node .compilationUnit (.at ⟨1, 1⟩) below
  | some n => .node n.kind n.span below
termination_by t.size - id
decreasing_by
  have := lt_of_mem_children ‹_›
  omega

/-- The children of a node are those that it lists. -/
theorem children_of_node? {n : Node} (h : t.node? id = some n) : t.children id = n.children := by
  rw [children, h]
  rfl

/-- The outline of a node is its kind, its span and the outlines of its children. -/
theorem outline_eq {n : Node} (h : t.node? id = some n) :
    t.outline id = .node n.kind n.span (n.children.map t.outline) := by
  rw [outline, h, ← children_of_node? h]
  simp

/-- What lies below a node depends on the nodes with greater names only. -/
theorem outline_congr (h : ∀ i, id ≤ i → i < t.size → u.node? i = t.node? i) (hid : id < t.size) :
    u.outline id = t.outline id := by
  induction id using t.below_induction with
  | step id ih =>
    obtain ⟨n, hn⟩ : ∃ n, t.node? id = some n := ⟨_, Array.getElem?_eq_getElem hid⟩
    rw [outline_eq hn, outline_eq ((h id (Nat.le_refl _) hid).trans hn)]
    refine congrArg _ (List.map_congr_left fun c hc => ?_)
    rw [← children_of_node? hn] at hc
    obtain ⟨hup, hlt⟩ := lt_of_mem_children hc
    exact ih c hc (fun i hi => h i (Nat.le_trans (Nat.le_of_lt hup) hi)) hlt

theorem mem_preorder_self (t : SyntaxTree) (id : Nat) : id ∈ t.preorder id := by
  rw [preorder_eq]
  exact List.mem_cons_self

theorem preorder_congr (h : ∀ i, id ≤ i → i < t.size → u.node? i = t.node? i) (hid : id < t.size) :
    u.preorder id = t.preorder id := by
  induction id using t.below_induction with
  | step id ih =>
    have hchildren : u.children id = t.children id := by
      rw [children, children, h id (Nat.le_refl _) hid]
    rw [preorder_eq, preorder_eq, hchildren]
    refine congrArg _ (List.flatMap_congr fun c hc => ?_)
    obtain ⟨hup, hlt⟩ := lt_of_mem_children hc
    exact ih c hc (fun i hi => h i (Nat.le_trans (Nat.le_of_lt hup) hi)) hlt

/-- A tree `u` that is the tree `t` with nodes added below `parent`, of which `added` are its new
children. A walk over them comes past all new nodes, in the order in which they were added. -/
structure Grafted (t : SyntaxTree) (parent : Nat) (added : List Outline) (u : SyntaxTree) :
    Prop where
  size_le : t.size ≤ u.size
  old : ∀ {i}, i < t.size → i ≠ parent → u.node? i = t.node? i
  parent : ∃ ids, u.node? parent =
      (t.node? parent).map (fun n => { n with children := n.children ++ ids }) ∧
    ids.map u.outline = added ∧
    ids.flatMap u.preorder = List.range' t.size (u.size - t.size)

/-- Grafting nothing changes nothing. -/
theorem Grafted.nil (parent : Nat) : Grafted t parent [] t where
  size_le := Nat.le_refl _
  old _ _ := rfl
  parent := ⟨[], by simp, rfl, by simp⟩

/-- Nodes that are added below the same node come behind the earlier ones. -/
theorem Grafted.append {v : SyntaxTree} {parent : Nat} {added more : List Outline}
    (hp : parent < t.size) (h : Grafted t parent added u) (h' : Grafted u parent more v) :
    Grafted t parent (added ++ more) v where
  size_le := Nat.le_trans h.size_le h'.size_le
  old hi hne := (h'.old (Nat.lt_of_lt_of_le hi h.size_le) hne).trans (h.old hi hne)
  parent := by
    obtain ⟨ids, hnode, houtlines, hwalk⟩ := h.parent
    obtain ⟨ids', hnode', houtlines', hwalk'⟩ := h'.parent
    have hle := h.size_le
    have hle' := h'.size_le
    -- what the first grafting added lies below the size it left
    have hids : ∀ i ∈ ids, t.size ≤ i ∧ i < u.size := by
      intro i hi
      have hmem : i ∈ List.range' t.size (u.size - t.size) :=
        hwalk ▸ List.mem_flatMap.mpr ⟨i, hi, u.mem_preorder_self i⟩
      rw [List.mem_range'_1] at hmem
      omega
    refine ⟨ids ++ ids', ?_, ?_, ?_⟩
    · rw [hnode', hnode, Option.map_map]
      simp [Function.comp_def]
    · rw [List.map_append, houtlines', ← houtlines]
      refine congrArg (· ++ more) (List.map_congr_left fun i hi => ?_)
      obtain ⟨hle, hlt⟩ := hids i hi
      -- adding more changes no node of the first part, so it is read back as before
      exact outline_congr (fun j hj hjlt => h'.old hjlt (by omega)) hlt
    · have hkept : ids.flatMap v.preorder = ids.flatMap u.preorder := by
        refine List.flatMap_congr fun i hi => ?_
        obtain ⟨hle, hlt⟩ := hids i hi
        exact preorder_congr (fun j hj hjlt => h'.old hjlt (by omega)) hlt
      have hmiddle : u.size = t.size + (u.size - t.size) := by omega
      have hlength : v.size - t.size = u.size - t.size + (v.size - u.size) := by omega
      rw [List.flatMap_append, hkept, hwalk, hwalk', hlength, ← List.range'_append_1, ← hmiddle]

mutual

/-- A grafted outline is read back from its number, and takes the numbers behind those that were
there. Induction along the outline, with the row of its children in step. -/
theorem grafted_graft (t : SyntaxTree) {parent : Nat} (hp : parent < t.size) (o : Outline) :
    Grafted t parent [o] (t.graft parent o) := by
  match o with
  | .node kind span children =>
    have hsize := size_add hp kind span
    have hself : t.size < (t.add parent kind span).size := by omega
    have hall := grafted_graftAll (t.add parent kind span) hself children
    have hle := hall.size_le
    -- the children are grafted below the node that has just been added
    obtain ⟨ids, hnode, houtlines, hwalk⟩ := hall.parent
    rw [node?_add hp, if_pos rfl] at hnode
    rw [graft]
    refine ⟨by omega, ?_, [t.size], ?_, ?_, ?_⟩
    · intro i hi hne
      rw [hall.old (by omega) (by omega), node?_add hp, if_neg (by omega), if_neg hne]
    · rw [hall.old (by omega) (by omega), node?_add hp, if_neg (by omega), if_pos rfl]
    · rw [List.map_singleton, outline_eq hnode]
      simp [houtlines]
    · have hlength : (graftAll (t.add parent kind span) t.size children).size - t.size =
          (graftAll (t.add parent kind span) t.size children).size -
            (t.add parent kind span).size + 1 := by omega
      rw [List.flatMap_singleton, preorder_eq, children_of_node? hnode, hlength, List.range'_succ,
        ← hsize]
      exact congrArg _ hwalk

/-- A row of outlines is read back from the numbers of its members. -/
theorem grafted_graftAll (t : SyntaxTree) {parent : Nat} (hp : parent < t.size)
    (os : List Outline) : Grafted t parent os (t.graftAll parent os) := by
  match os with
  | [] => exact .nil parent
  | o :: others =>
    have hfirst := grafted_graft t hp o
    exact hfirst.append hp (grafted_graftAll _ (Nat.lt_of_lt_of_le hp hfirst.size_le) others)

end

/-- The root of a built tree has its place at the very start, no parent, and as children the
outlines that were given, with all further numbers below them. -/
theorem exists_node?_root (os : List Outline) :
    ∃ ids, (ofOutlines os).node? root = some ⟨.compilationUnit, .at ⟨1, 1⟩, none, ids⟩ ∧
      ids.map (ofOutlines os).outline = os ∧
      ids.flatMap (ofOutlines os).preorder = List.range' 1 ((ofOutlines os).size - 1) := by
  have hempty : root < empty.size := by decide
  exact (grafted_graftAll empty hempty os).parent

/-- The tree of some type declarations has these below its root, as they were. -/
theorem outline_ofOutlines (os : List Outline) :
    (ofOutlines os).outline root = .node .compilationUnit (.at ⟨1, 1⟩) os := by
  obtain ⟨ids, hnode, houtlines, -⟩ := exists_node?_root os
  rw [outline_eq hnode]
  exact congrArg _ houtlines

/-- A walk over the tree of some type declarations comes past the nodes in the order in which they
were added. -/
theorem preorder_ofOutlines (os : List Outline) :
    (ofOutlines os).preorder root = List.range (ofOutlines os).size := by
  obtain ⟨ids, hnode, -, hwalk⟩ := exists_node?_root os
  have hroot := lt_size_of_kind? (grown_ofOutlines os).linked.kind_root
  have hpos : (ofOutlines os).size = (ofOutlines os).size - 1 + 1 := by omega
  rw [preorder_eq, children_of_node? hnode, List.range_eq_range', hpos, List.range'_succ]
  exact congrArg _ hwalk

/-! ## Walks -/

/-- The kind and the span of a node. -/
def part? (t : SyntaxTree) (id : Nat) : Option (NodeKind × Span) :=
  (t.node? id).map fun n => (n.kind, n.span)

/-- A walk comes past the nodes of the nested form in their order, and past no others. -/
theorem map_preorder_part? (hid : id < t.size) :
    (t.preorder id).map t.part? = (t.outline id).parts.map some := by
  induction id using t.below_induction with
  | step id ih =>
    obtain ⟨n, hn⟩ : ∃ n, t.node? id = some n := ⟨_, Array.getElem?_eq_getElem hid⟩
    have hbelow : ((t.children id).flatMap t.preorder).map t.part? =
        (Outline.partsAll ((t.children id).map t.outline)).map some := by
      have hlt : ∀ c ∈ t.children id, c < t.size := fun c hc => (lt_of_mem_children hc).2
      generalize t.children id = children at ih hlt
      induction children with
      | nil => simp
      | cons c children ihc =>
        obtain ⟨ihFirst, ihRest⟩ := List.forall_mem_cons.mp ih
        obtain ⟨hfirst, hrest⟩ := List.forall_mem_cons.mp hlt
        rw [List.flatMap_cons, List.map_append, ihFirst hfirst, ihc ihRest hrest]
        simp
    rw [children_of_node? hn] at hbelow
    have hself : t.part? id = some (n.kind, n.span) := by rw [part?, hn]; rfl
    rw [preorder_eq, children_of_node? hn, outline_eq hn, Outline.parts_node, List.map_cons, hbelow,
      hself, List.map_cons]

/-- A walk below a node meets the parts of its outline, in order. -/
theorem filterMap_preorder_part? (hid : id < t.size) :
    (t.preorder id).filterMap t.part? = (t.outline id).parts := by
  have hfilter := List.filterMap_map (f := t.part?) (g := fun part => part) (l := t.preorder id)
  rw [map_preorder_part? hid, List.filterMap_map] at hfilter
  simpa using hfilter.symm

theorem length_preorder (hid : id < t.size) :
    (t.preorder id).length = (t.outline id).parts.length := by
  simpa using congrArg List.length (map_preorder_part? hid)

/-- The token that a node has its name from, if it is a variable or a parameter. -/
def nameToken? (t : SyntaxTree) (id : Nat) : Option Lexeme :=
  (t.node? id).bind fun n => n.kind.nameToken? n.span

/-- The names that a walk comes past. -/
def declaredNames (t : SyntaxTree) : List Lexeme :=
  (t.preorder root).filterMap t.nameToken?

theorem filterMap_preorder_nameToken? (hid : id < t.size) :
    (t.preorder id).filterMap t.nameToken? = (t.outline id).names := by
  have hname : t.nameToken? = fun id =>
      (t.part? id).bind fun part => part.1.nameToken? part.2 := by
    funext id
    rw [nameToken?, part?, Option.bind_map]
    rfl
  rw [hname, ← List.filterMap_filterMap, filterMap_preorder_part? hid, Outline.filterMap_parts]

/-- A walk over the tree of some type declarations comes past their names from left to right. -/
theorem declaredNames_ofOutlines (os : List Outline) :
    (ofOutlines os).declaredNames = Outline.namesAll os := by
  have hroot := lt_size_of_kind? (grown_ofOutlines os).linked.kind_root
  rw [declaredNames, filterMap_preorder_nameToken? hroot, outline_ofOutlines, Outline.names_node]
  rfl

/-! ## The tree of some declarations -/

/-- A tree is that of some type declarations. What is said here is read off the tree: below its root
lie these declarations as they are, a walk counts its nodes, so that each has the kind and the span
of the outline at its place from left to right and there are no others, and links to parents go
where the lists of children come from. -/
structure IsTreeOf (t : SyntaxTree) (os : List Outline) : Prop where
  outline : t.outline root = .node .compilationUnit (.at ⟨1, 1⟩) os
  walk : t.preorder root = List.range t.size
  part? : ∀ id, t.part? id = ((.compilationUnit, .at ⟨1, 1⟩) :: Outline.partsAll os)[id]?
  parent_root : t.parent? root = none
  mem_children : ∀ p c, c ∈ t.children p ↔ t.parent? c = some p

/-- If a walk counts the nodes, each of them has the kind and the span of the outline at its
place. -/
theorem part?_of_walk {os : List Outline} (hroot : root < t.size)
    (houtline : t.outline root = .node .compilationUnit (.at ⟨1, 1⟩) os)
    (hwalk : t.preorder root = List.range t.size) (id : Nat) :
    t.part? id = ((.compilationUnit, .at ⟨1, 1⟩) :: Outline.partsAll os)[id]? := by
  have hparts := map_preorder_part? hroot
  rw [hwalk, houtline, Outline.parts_node] at hparts
  have hentry := congrArg (·[id]?) hparts
  simp only [List.getElem?_map] at hentry
  by_cases hid : id < t.size
  · rw [List.getElem?_range hid, Option.map_some] at hentry
    cases hpart : ((NodeKind.compilationUnit, Span.at ⟨1, 1⟩) :: Outline.partsAll os)[id]? with
    | none => simp [hpart] at hentry
    | some part => simpa [hpart] using hentry
  · have hnone : t.part? id = none := by
      rw [part?, node?_of_size_le (Nat.le_of_not_lt hid)]
      rfl
    rw [List.getElem?_eq_none (by simpa using hid)] at hentry
    cases hpart : ((NodeKind.compilationUnit, Span.at ⟨1, 1⟩) :: Outline.partsAll os)[id]? with
    | none => exact hnone
    | some part => simp [hpart] at hentry

/-- The tree that grafting makes of some declarations is theirs. -/
theorem isTreeOf_ofOutlines (os : List Outline) : (ofOutlines os).IsTreeOf os where
  outline := outline_ofOutlines os
  walk := preorder_ofOutlines os
  part? := part?_of_walk (lt_size_of_kind? (grown_ofOutlines os).linked.kind_root)
    (outline_ofOutlines os) (preorder_ofOutlines os)
  parent_root := (grown_ofOutlines os).linked.parent_root
  mem_children := (grown_ofOutlines os).linked.mem_children

/-! ## No second tree of the same declarations -/

/-- Two rows of subtrees that stand for the same outlines, with the same numbers on a walk over
them, have the same first nodes, and so has each pair of them. -/
theorem eq_of_flatMap_preorder {cs ds : List Nat} {first n : Nat}
    (houtlines : cs.map t.outline = ds.map u.outline)
    (ht : cs.flatMap t.preorder = List.range' first n)
    (hu : ds.flatMap u.preorder = List.range' first n)
    (hcs : ∀ c ∈ cs, c < t.size) (hds : ∀ d ∈ ds, d < u.size) :
    cs = ds ∧ ∀ c ∈ cs, t.preorder c = u.preorder c ∧ t.outline c = u.outline c ∧
      ∃ m, t.preorder c = List.range' c m := by
  induction cs generalizing ds first n with
  | nil =>
    obtain rfl : ds = [] := List.map_eq_nil_iff.mp houtlines.symm
    exact ⟨rfl, nofun⟩
  | cons c cs ih =>
    obtain ⟨d, ds, rfl⟩ : ∃ d ds', ds = d :: ds' := by
      cases ds with
      | nil => cases houtlines
      | cons d ds => exact ⟨d, ds, rfl⟩
    obtain ⟨hc, hlater⟩ := List.forall_mem_cons.mp hcs
    obtain ⟨hd, hlater'⟩ := List.forall_mem_cons.mp hds
    rw [List.map_cons, List.map_cons, List.cons.injEq] at houtlines
    obtain ⟨houtline, houtlines⟩ := houtlines
    rw [List.flatMap_cons, eq_comm, List.range'_eq_append_iff] at ht hu
    obtain ⟨k, hk, hfirst, hrest⟩ := ht
    obtain ⟨k', hk', hfirst', hrest'⟩ := hu
    -- the outlines are as long as the walks over them
    have hlength : k = k' := by
      have hlengths := (length_preorder hc).trans (houtline ▸ (length_preorder hd).symm)
      rw [hfirst, hfirst', List.length_range', List.length_range'] at hlengths
      exact hlengths
    obtain rfl := hlength
    have hwalk : t.preorder c = u.preorder d := hfirst.trans hfirst'.symm
    have hcd : c = d := by
      rw [preorder_eq, preorder_eq u] at hwalk
      exact (List.cons.inj hwalk).1
    obtain rfl := hcd
    have hstart : first = c := by
      have hhead := congrArg List.head? hfirst
      rw [preorder_eq, List.head?_cons, List.head?_range'] at hhead
      split at hhead
      · cases hhead
      · exact (Option.some.inj hhead).symm
    obtain ⟨rfl, hall⟩ := ih houtlines hrest hrest' hlater hlater'
    exact ⟨rfl, List.forall_mem_cons.mpr ⟨⟨hwalk, houtline, k, hstart ▸ hfirst⟩, hall⟩⟩

/-- A walk that counts the nodes of an outline fixes the lists of children. -/
theorem children_eq_of_outline {n : Nat} (houtline : t.outline id = u.outline id)
    (hwalk : t.preorder id = List.range' id n) (hwalk' : u.preorder id = List.range' id n)
    (hid : id < t.size) (hid' : id < u.size) :
    ∀ j ∈ t.preorder id, t.children j = u.children j := by
  induction id using t.below_induction generalizing n with
  | step id ih =>
    obtain ⟨m, hm⟩ : ∃ m, t.node? id = some m := ⟨_, Array.getElem?_eq_getElem hid⟩
    obtain ⟨m', hm'⟩ : ∃ m', u.node? id = some m' := ⟨_, Array.getElem?_eq_getElem hid'⟩
    have hbelow := houtline
    rw [outline_eq hm, outline_eq hm', Outline.node.injEq, ← children_of_node? hm,
      ← children_of_node? hm'] at hbelow
    obtain ⟨k, rfl⟩ : ∃ k, n = k + 1 := by
      cases n with
      | zero => simp [preorder_eq] at hwalk
      | succ k => exact ⟨k, rfl⟩
    have ht := hwalk
    have hu := hwalk'
    rw [preorder_eq, List.range'_succ, List.cons.injEq] at ht hu
    -- two walks over consecutive identities are cut into children at the same places
    obtain ⟨hchildren, hall⟩ := eq_of_flatMap_preorder hbelow.2.2 ht.2 hu.2
      (fun c hc => (lt_of_mem_children hc).2) fun d hd => (lt_of_mem_children hd).2
    intro j hj
    rw [preorder_eq, List.mem_cons, List.mem_flatMap] at hj
    rcases hj with rfl | ⟨c, hc, hj⟩
    · exact hchildren
    · obtain ⟨hsame, hsub, m, hrange⟩ := hall c hc
      exact ih c hc hsub hrange (hsame ▸ hrange) (lt_of_mem_children hc).2
        (lt_of_mem_children (hchildren ▸ hc)).2 j hj

/-- A tree that has a part at the root has a root. -/
theorem root_lt_size_of_part? {part : NodeKind × Span} (h : t.part? root = some part) :
    root < t.size := by
  obtain ⟨n, hn, -⟩ := Option.map_eq_some_iff.mp h
  exact Array.getElem?_eq_some_iff.mp hn |>.1

/-- A tree is what its kinds, spans, links to parents and lists of children are. -/
theorem ext_node? (h : ∀ id : Nat, t.node? id = u.node? id) : t = u := by
  obtain ⟨nodes, _, _⟩ := t
  obtain ⟨nodes', _, _⟩ := u
  obtain rfl : nodes = nodes' := Array.ext_getElem? h
  rfl

/-- A node is told by its part, its parent and its children. -/
theorem node?_eq (t : SyntaxTree) (id : Nat) : t.node? id =
    (t.part? id).map fun part => ⟨part.1, part.2, t.parent? id, t.children id⟩ := by
  rw [part?, parent?, children]
  cases t.node? id <;> rfl

/-- There is only one tree of some declarations. -/
theorem IsTreeOf.unique {os : List Outline} (h : t.IsTreeOf os) (h' : u.IsTreeOf os) : t = u := by
  have hroot := root_lt_size_of_part? (h.part? root)
  have hroot' := root_lt_size_of_part? (h'.part? root)
  have houtline : t.outline root = u.outline root := h.outline.trans h'.outline.symm
  have hsize : t.size = u.size := by
    have hlength := (length_preorder hroot).trans (houtline ▸ (length_preorder hroot').symm)
    rwa [h.walk, h'.walk, List.length_range, List.length_range] at hlength
  have hwalk := h.walk
  have hwalk' := h'.walk
  rw [List.range_eq_range'] at hwalk hwalk'
  have hchildren (p : Nat) : t.children p = u.children p := by
    by_cases hp : p < t.size
    · refine children_eq_of_outline houtline hwalk (hsize ▸ hwalk') hroot hroot' p ?_
      rwa [h.walk, List.mem_range]
    · have hp' : u.size ≤ p := by omega
      rw [children, children, node?_of_size_le (Nat.le_of_not_lt hp), node?_of_size_le hp']
  have hparent (id : Nat) : t.parent? id = u.parent? id :=
    Option.ext fun p => by rw [← h.mem_children, ← h'.mem_children, hchildren]
  refine ext_node? fun id => ?_
  rw [t.node?_eq, u.node?_eq, h.part?, h'.part?, hparent, hchildren]

end SyntaxTree

end FieldShadow
