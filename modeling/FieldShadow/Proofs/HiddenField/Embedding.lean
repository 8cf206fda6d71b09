import FieldShadow.Proofs.HiddenField.Shadowing
import FieldShadow.Proofs.SyntaxTree.Embedding

/-!
# Shadowing in trees with nodes behind them

Whether a node hides a field depends on the nodes above it and on the bodies of the types among
them. The root that two trees share when one stands behind the other is no type, so an embedding
leaves every answer as it is (`Embeds.shadowing?_eq`), and the reports about two rows of type
declarations are those about the first and then those about the second (`shadowings_ofOutlines`).
-/

namespace FieldShadow

/-- A finding in another place of the text. -/
def Diagnostic.moved (move : Span → Span) (d : Diagnostic) : Diagnostic :=
  { d with span := move d.span }

namespace SyntaxTree

/-- The nodes below one have greater numbers, up to the size of the tree. -/
theorem bounds_of_mem_preorder {t : SyntaxTree} {node m : Nat} (hlt : node < t.size)
    (hm : m ∈ t.preorder node) : node ≤ m ∧ m < t.size := by
  induction node using t.below_induction with
  | step node ih =>
    rw [preorder_eq, List.mem_cons, List.mem_flatMap] at hm
    rcases hm with rfl | ⟨c, hc, hm⟩
    · exact ⟨Nat.le_refl _, hlt⟩
    · obtain ⟨hup, hlt'⟩ := lt_of_mem_children hc
      obtain ⟨hle, hm⟩ := ih c hc hlt' hm
      exact ⟨Nat.le_trans (Nat.le_of_lt hup) hle, hm⟩

namespace Embeds

variable {t u : SyntaxTree} {φ : Nat → Nat} {move : Span → Span} {node : Nat}

/-! ## What is asked of the tree -/

/-- The nearest kind above a node that is asked for is the same, since the kinds above it are. -/
theorem nearest?_eq (h : t.Embeds u φ move) (hlt : node < t.size) (p : NodeKind → Bool) :
    u.nearest? (φ node) p = t.nearest? node p := by
  rw [nearest?, h.ancestorKinds_eq hlt, nearest?]

/-- An image is in static code exactly if the node is. -/
theorem inStaticCode_iff (h : t.Embeds u φ move) (hlt : node < t.size) :
    u.InStaticCode (φ node) ↔ t.InStaticCode node := by
  rw [InStaticCode, h.nearest?_eq hlt, InStaticCode]

/-- The kind of the parent is the same. -/
theorem kindAbove_eq (h : t.Embeds u φ move) (hlt : node < t.size) :
    (u.parent? (φ node)).bind u.kind? = (t.parent? node).bind t.kind? := by
  rw [h.parent?_eq hlt, Option.bind_map]
  cases hp : t.parent? node with
  | none => rfl
  | some p => exact h.kind?_eq (Nat.lt_trans (parent?_lt hp) hlt)

/-- The name of the enclosing class is the same. -/
theorem enclosingClass?_eq (h : t.Embeds u φ move) (hlt : node < t.size) :
    u.enclosingClass? (φ node) = t.enclosingClass? node := by
  rw [enclosingClass?, h.ancestorKinds_eq hlt, enclosingClass?]

/-- Whether a static class stands right above is the same. -/
theorem isStaticClass_iff (h : t.Embeds u φ move) (hlt : node < t.size) :
    u.IsStaticClass (φ node) ↔ t.IsStaticClass node := by
  rw [IsStaticClass, h.kind?_eq hlt, IsStaticClass]

/-- The body of an image is the image of the body. -/
theorem typeBody?_eq (h : t.Embeds u φ move) (hroot : node ≠ SyntaxTree.root)
    (hlt : node < t.size) : u.typeBody? (φ node) = (t.typeBody? node).map φ := by
  rw [typeBody?, h.children_eq hroot hlt, List.find?_map, typeBody?, ← List.head?_filter,
    ← List.head?_filter]
  refine congrArg (fun bodies => Option.map φ bodies.head?) (List.filter_congr fun c hc => ?_)
  simp only [Function.comp_apply, h.kind?_eq (lt_of_mem_children hc).2]

/-- An image has the fields of the node. -/
theorem fields_eq (h : t.Embeds u φ move) (hroot : node ≠ SyntaxTree.root)
    (hlt : node < t.size) : u.fields (φ node) = t.fields node := by
  rw [fields, h.typeBody?_eq hroot hlt, fields]
  cases hbody : t.typeBody? node with
  | none => rfl
  | some body =>
    have hmem := lt_of_mem_children (List.mem_of_find?_eq_some hbody)
    have hbodyRoot : body ≠ SyntaxTree.root :=
      Nat.ne_of_gt (Nat.lt_of_le_of_lt (Nat.zero_le _) hmem.1)
    simp only [Option.map_some, h.children_eq hbodyRoot hmem.2, List.filterMap_map]
    exact List.filterMap_congr fun c hc => by
      simp only [Function.comp_apply, h.kind?_eq (lt_of_mem_children hc).2]

/-- Whether a field is declared is the same. -/
theorem declaresField_iff (h : t.Embeds u φ move) (hlt : node < t.size)
    (name : String) (isStatic : Bool) :
    u.DeclaresField (φ node) name isStatic ↔ t.DeclaresField node name isStatic := by
  unfold DeclaresField
  rw [h.kind?_eq hlt]
  refine and_congr_right fun hholds => ?_
  have hroot : node ≠ SyntaxTree.root := by
    rintro rfl
    rw [h.kind_root] at hholds
    cases hholds
  rw [h.fields_eq hroot hlt]

/-- The image of a node is above an image exactly if the node is above the node. Images are told
apart by their numbers. -/
theorem mem_ancestors_iff (h : t.Embeds u φ move) (hlt : node < t.size) (a : Nat) :
    φ a ∈ u.ancestors (φ node) ↔ a ∈ t.ancestors node := by
  rw [h.ancestors_eq hlt, List.mem_map]
  constructor
  · rintro ⟨b, hb, heq⟩
    exact h.injective heq ▸ hb
  · exact fun ha => ⟨a, ha, rfl⟩

/-- A static field is seen from an image exactly if it is seen from the node. -/
theorem seesStatic_iff (h : t.Embeds u φ move) (hlt : node < t.size)
    (name : String) : u.SeesStatic (φ node) name ↔ t.SeesStatic node name := by
  unfold SeesStatic
  rw [h.ancestors_eq hlt]
  simp only [List.mem_map, exists_exists_and_eq_and]
  refine exists_congr fun a => and_congr_right fun ha => ?_
  exact h.declaresField_iff (Nat.lt_trans (lt_of_mem_ancestors ha) hlt) name true

theorem seesInstance_iff (h : t.Embeds u φ move) (hlt : node < t.size)
    (name : String) : u.SeesInstance (φ node) name ↔ t.SeesInstance node name := by
  unfold SeesInstance
  rw [h.ancestors_eq hlt]
  simp only [List.mem_map, exists_exists_and_eq_and, forall_exists_index, and_imp,
    forall_apply_eq_imp_iff₂]
  refine exists_congr fun a => and_congr_right fun ha => ?_
  have hlt' {b : Nat} (hb : b ∈ t.ancestors node) : b < t.size :=
    Nat.lt_trans (lt_of_mem_ancestors hb) hlt
  refine and_congr (h.declaresField_iff (hlt' ha) name false) ?_
  refine forall_congr' fun b => forall_congr' fun hb => ?_
  rw [h.mem_ancestors_iff (hlt' hb), h.isStaticClass_iff (hlt' hb)]

/-! ## Exemptions -/

/-- The list that a parameter stands in has its image as the list of the image, with the same owner.
-/
theorem parameterList?_eq (h : t.Embeds u φ move) (hlt : node < t.size) (name : String)
    (kind : DeclarationKind) (class? : Option String) :
    (Declaration.mk (φ node) name kind class?).parameterList? u =
      ((Declaration.mk node name kind class?).parameterList? t).map (Prod.map φ φ) := by
  ext ⟨list, owner⟩
  rw [Option.map_eq_some_iff, Declaration.parameterList?_eq_some]
  constructor
  · rintro ⟨hkind, hlist, hparameters, howner⟩
    rw [h.parent?_eq hlt] at hlist
    obtain ⟨list', hlist', rfl⟩ := Option.map_eq_some_iff.mp hlist
    have hlt' := Nat.lt_trans (parent?_lt hlist') hlt
    rw [h.kind?_eq hlt'] at hparameters
    rw [h.parent?_eq hlt'] at howner
    obtain ⟨owner', howner', rfl⟩ := Option.map_eq_some_iff.mp howner
    exact ⟨_, Declaration.parameterList?_eq_some.mpr ⟨hkind, hlist', hparameters, howner'⟩, rfl⟩
  · rintro ⟨⟨list, owner⟩, hfound, heq⟩
    obtain ⟨hkind, hlist, hparameters, howner⟩ := Declaration.parameterList?_eq_some.mp hfound
    obtain ⟨rfl, rfl⟩ := Prod.mk.inj heq
    have hlt' := Nat.lt_trans (parent?_lt hlist) hlt
    exact ⟨hkind, by rw [h.parent?_eq hlt, hlist]; rfl, by rw [h.kind?_eq hlt', hparameters],
      by rw [h.parent?_eq hlt', howner]; rfl⟩

/-- The owner of a parameter is the same. -/
theorem owner?_eq (h : t.Embeds u φ move) (hlt : node < t.size) (name : String)
    (kind : DeclarationKind) (class? : Option String) :
    (Declaration.mk (φ node) name kind class?).owner? u =
      (Declaration.mk node name kind class?).owner? t := by
  unfold Declaration.owner?
  rw [h.parameterList?_eq hlt]
  cases hlist : (Declaration.mk node name kind class?).parameterList? t with
  | none => rfl
  | some found =>
    obtain ⟨-, hup, -, howner⟩ := Declaration.parameterList?_eq_some.mp hlist
    exact h.kind?_eq (Nat.lt_trans (parent?_lt howner) (Nat.lt_trans (parent?_lt hup) hlt))

/-- Whether a parameter is one of a setter is judged from the owner and the number of parameters. -/
theorem isSetterParameter_eq (h : t.Embeds u φ move) (hlt : node < t.size) (s : Settings)
    (name : String) (kind : DeclarationKind) (class? : Option String) :
    Exemption.isSetterParameter s u ⟨φ node, name, kind, class?⟩ =
      Exemption.isSetterParameter s t ⟨node, name, kind, class?⟩ := by
  unfold Exemption.isSetterParameter
  rw [h.parameterList?_eq hlt]
  cases hlist : (Declaration.mk node name kind class?).parameterList? t with
  | none => rfl
  | some found =>
    obtain ⟨list, owner⟩ := found
    obtain ⟨-, hup, hkind, howner⟩ := Declaration.parameterList?_eq_some.mp hlist
    have hlt₁ : list < t.size := Nat.lt_trans (parent?_lt hup) hlt
    have hlt₂ : owner < t.size := Nat.lt_trans (parent?_lt howner) hlt₁
    have hroot : list ≠ SyntaxTree.root := by
      rintro rfl
      cases h.kind_root.symm.trans hkind
    simp only [Option.map_some, Prod.map, h.kind?_eq hlt₂, h.children_eq hroot hlt₁,
      List.length_map]

/-- Every exemption applies to the image exactly if it applies to the node. -/
theorem applies_eq (h : t.Embeds u φ move) (hlt : node < t.size) (e : Exemption) (s : Settings)
    (name : String) (kind : DeclarationKind) (class? : Option String) :
    e.applies s u ⟨φ node, name, kind, class?⟩ = e.applies s t ⟨node, name, kind, class?⟩ := by
  cases e with
  | format => rfl
  | setter => simp only [Exemption.applies, h.isSetterParameter_eq hlt]
  | constructor | abstractMethod => simp only [Exemption.applies, h.owner?_eq hlt]

/-! ## What is reported -/

/-- An image shadows a field exactly if the node does. -/
theorem shadows_iff (h : t.Embeds u φ move) (hlt : node < t.size)
    (s : Settings) (name : String) (kind : DeclarationKind) :
    u.Shadows s (φ node) name kind ↔ t.Shadows s node name kind := by
  rw [SyntaxTree.shadows_iff, SyntaxTree.shadows_iff, h.nearest?_eq hlt, h.kindAbove_eq hlt,
    h.seesStatic_iff hlt, h.seesInstance_iff hlt, h.inStaticCode_iff hlt,
    isExempt_iff, isExempt_iff, h.enclosingClass?_eq hlt]
  simp only [h.applies_eq hlt]

/-- What is reported of an image is what is reported of the node, with its span moved. -/
theorem shadowing?_eq (h : t.Embeds u φ move)
    (hroot : node ≠ SyntaxTree.root) (hlt : node < t.size) (s : Settings) :
    u.shadowing? s (φ node) = (t.shadowing? s node).map (Diagnostic.moved move) := by
  obtain ⟨n, hnode⟩ : ∃ n, t.node? node = some n := ⟨_, Array.getElem?_eq_getElem hlt⟩
  have hnode' := h.node hroot hnode
  ext d
  simp only [shadowing?_eq_some, Option.map_eq_some_iff]
  constructor
  · rintro ⟨n', name, kind, hn', hdeclares, hshadows, rfl⟩
    obtain rfl := Option.some.inj (hnode'.symm.trans hn')
    exact ⟨_, ⟨n, name, kind, hnode, hdeclares, (h.shadows_iff hlt s name kind).mp hshadows, rfl⟩,
      rfl⟩
  · rintro ⟨_, ⟨n', name, kind, hn', hdeclares, hshadows, rfl⟩, rfl⟩
    obtain rfl := Option.some.inj (hnode.symm.trans hn')
    exact ⟨_, name, kind, hnode', hdeclares, (h.shadows_iff hlt s name kind).mpr hshadows, rfl⟩

/-- The reports about what lies below some declarations of a unit. -/
theorem filterMap_preorder (h : t.Embeds u φ move) {nodes : List Nat}
    (hnodes : ∀ c ∈ nodes, c ∈ t.children SyntaxTree.root) (s : Settings) :
    ((nodes.map φ).flatMap u.preorder).filterMap (u.shadowing? s) =
      ((nodes.flatMap t.preorder).filterMap (t.shadowing? s)).map (Diagnostic.moved move) := by
  induction nodes with
  | nil => rfl
  | cons c nodes ih =>
    obtain ⟨hc, hnodes⟩ := List.forall_mem_cons.mp hnodes
    obtain ⟨hpos, hlt⟩ := lt_of_mem_children hc
    have hfirst : ((t.preorder c).map φ).filterMap (u.shadowing? s) =
        ((t.preorder c).filterMap (t.shadowing? s)).map (Diagnostic.moved move) := by
      rw [List.filterMap_map, List.map_filterMap]
      refine List.filterMap_congr fun node hnode => ?_
      obtain ⟨hle, hlt⟩ := bounds_of_mem_preorder hlt hnode
      exact h.shadowing?_eq (Nat.ne_of_gt (Nat.lt_of_lt_of_le hpos hle)) hlt s
    rw [List.map_cons, List.flatMap_cons, List.flatMap_cons, List.filterMap_append,
      List.filterMap_append, List.map_append, ih hnodes, h.preorder_eq (Nat.ne_of_gt hpos) hlt,
      hfirst]

end Embeds

/-- What is reported of a tree is what is reported below the children of its root; the root itself
declares nothing. -/
theorem shadowings_eq {t : SyntaxTree} (ht : t.kind? root = some .compilationUnit)
    (s : Settings) :
    t.shadowings s = ((t.children root).flatMap t.preorder).filterMap (t.shadowing? s) := by
  rw [shadowings, preorder_eq, List.filterMap_cons,
    HiddenFieldRule.shadowing?_eq_none ht (by rfl)]

/-- What is reported about two rows of type declarations is what is reported about each. -/
theorem shadowings_ofOutlines (os os' : List Outline) (move : Span → Span) (s : Settings) :
    (ofOutlines (os ++ Outline.movedAll move os')).shadowings s =
      (ofOutlines os).shadowings s ++
        ((ofOutlines os').shadowings s).map (Diagnostic.moved move) := by
  have happended := appended_ofOutlines os os' move
  have hroot (os : List Outline) : (ofOutlines os).kind? root = some .compilationUnit :=
    (grown_ofOutlines os).linked.kind_root
  have hfront := happended.embeds_front (hroot os)
  have hbehind := happended.embeds_behind (hroot os) (hroot os')
  have hfound := hfront.filterMap_preorder (fun c hc => hc) s
  rw [shadowings_eq (hroot _), shadowings_eq (hroot _), shadowings_eq (hroot _),
    happended.children_root, List.flatMap_append, List.filterMap_append,
    hbehind.filterMap_preorder (fun c hc => hc) s]
  have hmoved : Diagnostic.moved id = id := rfl
  rw [List.map_id, hmoved, List.map_id] at hfound
  rw [hfound]

end SyntaxTree

end FieldShadow
