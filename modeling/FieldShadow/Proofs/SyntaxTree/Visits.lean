import FieldShadow.Proofs.HiddenField.Balance
import Mathlib.Data.List.Induction
import Mathlib.Data.List.Nodup
import Mathlib.Data.List.Perm.Basic

/-!
# Trees built by hand, and the walk over them

Nodes may be added in any order, also below nodes whose siblings have children already. As long as
each goes below a node that is there, what comes about is a tree (`isRooted`), and a walk visits
each node once: it tells of each declaration once, enters and leaves each type once, and between the
two tells of all that lies below the type and of nothing else (`isWalked`).
-/

namespace FieldShadow

namespace SyntaxTree

/-- One more node: where it goes, what it is and which stretch it stands for. -/
structure Addition where
  parent : Nat
  kind : NodeKind
  span : Span

/-- The tree after some additions to an empty compilation unit. -/
def built (additions : List Addition) : SyntaxTree :=
  additions.foldl (fun t a => t.add a.parent a.kind a.span) empty

/-- Whether each node goes below one that is there at that moment: the root, or one that was added
before. -/
def Fits (additions : List Addition) : Prop :=
  ∀ (i : Nat) (h : i < additions.length), additions[i].parent ≤ i

/-- Whether the nodes of a tree are its root and some added ones, in their order. -/
structure IsBuiltFrom (t : SyntaxTree) (additions : List Addition) : Prop where
  size : t.size = additions.length + 1
  root : t.kind? root = some .compilationUnit
  added : ∀ (i : Nat) (a : Addition), additions[i]? = some a →
    ∃ children, t.node? (i + 1) = some ⟨a.kind, a.span, some a.parent, children⟩

/-- Whether each node but the root is once the child of one node, which came before it, and the way
up from every node leads to the root. -/
structure IsRooted (t : SyntaxTree) : Prop where
  root : t.parent? root = none ∧ ∀ q, root ∉ t.children q
  parent : ∀ c, c ≠ SyntaxTree.root → c < t.size → ∃ p, t.parent? c = some p ∧ p < c ∧
    (t.children p).count c = 1 ∧ ∀ q, c ∈ t.children q → q = p
  children : ∀ p, (t.children p).Pairwise (· < ·)
  ancestors : ∀ n p, t.parent? n = some p → t.ancestors n = p :: t.ancestors p
  falling : ∀ n, (n :: t.ancestors n).Pairwise (· > ·)
  last : ∀ n, n ≠ SyntaxTree.root → n < t.size →
    (t.ancestors n).getLast? = some SyntaxTree.root

/-- Whether a walk visits each node once and tells of it as its kind asks for, and all that it tells
of nodes below a type is told between entering and leaving the type. -/
structure IsWalked (t : SyntaxTree) : Prop where
  visits : ∀ n < t.size, (t.preorder root).count n = 1
  declarations : ∀ n, t.events.count (.declaration n) =
    if ((t.kind? n).bind NodeKind.declares?).isSome then 1 else 0
  enters : ∀ n, t.events.count (.enter n) = if (t.kind? n).any NodeKind.holdsFields then 1 else 0
  leaves : ∀ n, t.events.count (.leave n) = if (t.kind? n).any NodeKind.holdsFields then 1 else 0
  between : ∀ n, (t.kind? n).any NodeKind.holdsFields → ∃ outer inner after,
    t.events = outer ++ .enter n :: (inner ++ .leave n :: after) ∧
      (∀ e ∈ inner, n ∈ t.ancestors e.node) ∧ ∀ e ∈ outer ++ after, n ∉ t.ancestors e.node

variable {t : SyntaxTree}

/-! ## Additions -/

/-- The last addition is made to the tree of the others. -/
theorem built_concat (additions : List Addition) (a : Addition) :
    built (additions ++ [a]) = (built additions).add a.parent a.kind a.span :=
  List.foldl_append

/-- If a row fits, so does all but its last addition, whose parent is there by then. -/
theorem fits_concat {additions : List Addition} {a : Addition} (h : Fits (additions ++ [a])) :
    Fits additions ∧ a.parent < additions.length + 1 := by
  refine ⟨fun i hi => ?_, Nat.lt_succ_of_le ?_⟩
  · have hparent := h i (by rw [List.length_append]; omega)
    rwa [List.getElem_append_left hi] at hparent
  · simpa using h additions.length (by simp)

/-- A tree has a node for each addition, with its number, kind, place and parent. Induction on the
row from its end, since numbers are given out from the front. -/
theorem isBuiltFrom_built {additions : List Addition} (h : Fits additions) :
    (built additions).IsBuiltFrom additions ∧ (built additions).Grown := by
  induction additions using List.reverseRecOn with
  | nil => exact ⟨⟨rfl, rfl, nofun⟩, .empty⟩
  | append_singleton additions a ih =>
    obtain ⟨hfits, hparent⟩ := fits_concat h
    obtain ⟨hbuilt, hgrown⟩ := ih hfits
    have hthere : a.parent < (built additions).size := hbuilt.size ▸ hparent
    rw [built_concat]
    refine ⟨⟨?_, ?_, fun i b hb => ?_⟩, .add _ _ hgrown hthere⟩
    · rw [size_add hthere, hbuilt.size, List.length_append, List.length_singleton]
    · rw [kind?_add hthere (lt_size_of_kind? hbuilt.root), hbuilt.root]
    · rw [node?_add hthere, hbuilt.size]
      -- an earlier node keeps its kind and place; the new one has the next identity
      by_cases hi : i < additions.length
      · rw [List.getElem?_append_left hi] at hb
        obtain ⟨children, hnode⟩ := hbuilt.added i b hb
        rw [if_neg (by omega), hnode]
        split <;> exact ⟨_, rfl⟩
      · have hlt := (List.getElem?_eq_some_iff.mp hb).1
        obtain rfl : i = additions.length := by
          rw [List.length_append, List.length_singleton] at hlt
          omega
        obtain rfl : a = b := by simpa using hb
        exact ⟨[], if_pos rfl⟩

/-- In a linked tree every node but the root has its one parent, and both encodings agree. -/
theorem Linked.isRooted (h : t.Linked) : t.IsRooted := by
  have hmem : ∀ p c, c ∈ t.children p ↔ t.parent? c = some p := h.mem_children
  refine ⟨⟨h.parent_root, fun q hq => ?_⟩, fun c hc hlt => ?_, h.sorted,
    fun _ _ => ancestors_of_parent?, fun n => ?_, fun n hn hlt => ?_⟩
  · exact absurd ((hmem q root).mp hq) (by simp [h.parent_root])
  · obtain ⟨p, hp⟩ := h.exists_parent c hc hlt
    have hnodup : (t.children p).Nodup := (h.sorted p).imp Nat.ne_of_lt
    refine ⟨p, hp, parent?_lt hp, ?_, fun q hq => ?_⟩
    · exact List.count_eq_one_of_mem hnodup ((hmem p c).mpr hp)
    · exact Option.some.inj (((hmem q c).mp hq).symm.trans hp)
  · exact List.pairwise_cons.mpr ⟨fun a ha => lt_of_mem_ancestors ha, sorted_ancestors t n⟩
  · obtain ⟨inner, hancestors, -⟩ := ancestors_eq_append (h.root_mem_ancestors hn hlt)
    rw [hancestors, h.ancestors_root, List.getLast?_concat]

/-! ## The events of a walk -/

/-- Up to their order the events of a walk are those of the nodes that it visits. -/
theorem eventsFrom_perm {node : Nat} (h : node < t.size) :
    (t.eventsFrom node).Perm
      ((t.preorder node).flatMap fun n => t.opening n ++ t.closing n) := by
  induction node using t.below_induction with
  | step node ih =>
    have hbelow : ((t.children node).flatMap t.eventsFrom).Perm
        ((t.children node).flatMap fun c =>
          (t.preorder c).flatMap fun n => t.opening n ++ t.closing n) :=
      List.Perm.flatMap_left _ fun c hc => ih c hc (lt_of_mem_children hc).2
    rw [eventsFrom_eq_append h, preorder_eq, List.flatMap_cons, List.flatMap_assoc,
      List.append_assoc]
    exact (List.perm_append_comm.trans (hbelow.append_left _)).append_left _

/-- Where only one element of a list gives a value, the list gives it as often as that element. -/
theorem count_flatMap_of_nodup {α β : Type} [DecidableEq α] [DecidableEq β] {l : List α} {a : α}
    {f : α → List β} {b : β} (hnodup : l.Nodup) (hf : ∀ x, b ∈ f x → x = a) :
    (l.flatMap f).count b = if a ∈ l then (f a).count b else 0 := by
  have hnone : ∀ {l : List α}, a ∉ l → (l.flatMap f).count b = 0 := fun ha => by
    rw [List.count_eq_zero, List.mem_flatMap]
    rintro ⟨x, hx, hb⟩
    exact ha (hf x hb ▸ hx)
  split
  · next ha =>
    obtain ⟨front, back, rfl⟩ := List.append_of_mem ha
    have hback : a ∉ back ∧ a ∉ front := by
      rw [List.nodup_middle, List.nodup_cons, List.mem_append] at hnodup
      exact ⟨fun h => hnodup.1 (.inr h), fun h => hnodup.1 (.inl h)⟩
    rw [List.flatMap_append, List.flatMap_cons, List.count_append, List.count_append,
      hnone hback.1, hnone hback.2]
    omega
  · next ha => exact hnone ha

/-- An event is told where its own node is visited, and nowhere else. -/
theorem Linked.count_eventsFrom (h : t.Linked) {node : Nat} (hlt : node < t.size) (e : WalkEvent) :
    (t.eventsFrom node).count e =
      if e.node ∈ t.preorder node then (t.opening e.node ++ t.closing e.node).count e else 0 := by
  rw [(eventsFrom_perm hlt).count_eq]
  refine count_flatMap_of_nodup (h.nodup_preorder node) fun n he => ?_
  rcases List.mem_append.mp he with he | he
  · exact (node_of_mem_opening he).symm
  · exact (node_of_mem_closing he).symm

/-- What is no node has no events. -/
theorem opening_of_kind?_none {node : Nat} (h : t.kind? node = none) :
    t.opening node = [] ∧ t.closing node = [] := by
  rw [opening, closing, h]
  exact ⟨rfl, rfl⟩

/-- An event occurs in a walk as often as its own node has it, since a walk comes to each node once.
-/
theorem Linked.count_events (h : t.Linked) (e : WalkEvent) :
    t.events.count e = (t.opening e.node ++ t.closing e.node).count e := by
  rw [events, h.count_eventsFrom (lt_size_of_kind? h.kind_root)]
  split
  · rfl
  · next hvisit =>
    have hsize := Nat.le_of_not_lt (mt (h.mem_preorder_root e.node).mpr hvisit)
    have hkind : t.kind? e.node = none := by
      rw [kind?, node?_of_size_le hsize]
      rfl
    rw [(opening_of_kind?_none hkind).1, (opening_of_kind?_none hkind).2]
    rfl

/-- The walk from a node is a stretch of the whole walk. -/
theorem Linked.eventsFrom_infix (h : t.Linked) {node : Nat} (hlt : node < t.size) :
    t.eventsFrom node <:+: t.events := by
  induction node using Nat.strongRecOn with
  | _ node ih =>
    by_cases hroot : node = root
    · subst hroot
      exact List.infix_rfl
    · obtain ⟨p, hp⟩ := h.exists_parent node hroot hlt
      have hplt := parent?_lt hp
      obtain ⟨elder, younger, hchildren⟩ := List.append_of_mem ((h.mem_children p node).mpr hp)
      have hinfix : t.eventsFrom node <:+: t.eventsFrom p := by
        refine ⟨t.opening p ++ elder.flatMap t.eventsFrom,
          younger.flatMap t.eventsFrom ++ t.closing p, ?_⟩
        have hsize : p < t.size := by omega
        rw [eventsFrom_eq_append hsize, hchildren]
        simp
      exact hinfix.trans (ih p hplt (by omega))

/-- A node is entered once if it holds fields, and never otherwise. -/
theorem count_opening_enter (t : SyntaxTree) (n : Nat) :
    (t.opening n ++ t.closing n).count (.enter n) =
      if (t.kind? n).any NodeKind.holdsFields then 1 else 0 := by
  unfold opening closing
  cases t.kind? n with
  | none => rfl
  | some kind => cases kind <;> simp [NodeKind.holdsFields]

theorem count_closing_leave (t : SyntaxTree) (n : Nat) :
    (t.opening n ++ t.closing n).count (.leave n) =
      if (t.kind? n).any NodeKind.holdsFields then 1 else 0 := by
  unfold opening closing
  cases t.kind? n with
  | none => rfl
  | some kind => cases kind <;> simp [NodeKind.holdsFields]

/-- A node is declared once if it declares a name. -/
theorem count_opening_declaration (t : SyntaxTree) (n : Nat) :
    (t.opening n ++ t.closing n).count (.declaration n) =
      if ((t.kind? n).bind NodeKind.declares?).isSome then 1 else 0 := by
  unfold opening closing
  cases t.kind? n with
  | none => rfl
  | some kind => cases kind <;> simp [NodeKind.declares?]

/-- A node that holds fields is entered and left. -/
theorem opening_of_holdsFields {n : Nat} (h : (t.kind? n).any NodeKind.holdsFields) :
    t.opening n = [.enter n] ∧ t.closing n = [.leave n] := by
  unfold opening closing
  cases hkind : t.kind? n with
  | none => simp [hkind] at h
  | some kind => cases kind <;> simp_all [NodeKind.holdsFields]

/-- Between entering and leaving a node come the events of the nodes below it and no others. -/
theorem Linked.events_around (h : t.Linked) {n : Nat}
    (hn : (t.kind? n).any NodeKind.holdsFields) : ∃ outer inner after,
    t.events = outer ++ .enter n :: (inner ++ .leave n :: after) ∧
      (∀ e ∈ inner, n ∈ t.ancestors e.node) ∧ ∀ e ∈ outer ++ after, n ∉ t.ancestors e.node := by
  have hlt : n < t.size := by
    refine Nat.lt_of_not_le fun hsize => ?_
    simp [kind?, node?_of_size_le hsize] at hn
  obtain ⟨outer, after, hsplit⟩ := h.eventsFrom_infix hlt
  obtain ⟨hopening, hclosing⟩ := opening_of_holdsFields hn
  have hown := eventsFrom_eq_append hlt
  rw [hopening, hclosing] at hown
  refine ⟨outer, (t.children n).flatMap t.eventsFrom, after, ?_, fun e he => ?_,
    fun e he habove => ?_⟩
  · rw [← hsplit, hown]
    simp
  · obtain ⟨c, hc, he⟩ := List.mem_flatMap.mp he
    have hanc := h.ancestors_child hc
    rcases h.node_of_mem_eventsFrom (lt_of_mem_children hc).2 he with heq | hmem
    · simp [heq, hanc]
    · exact mem_ancestors_trans hmem (by simp [hanc])
  · -- such an event is told in the walk from the type already, and it is not told again
    have hcount : (t.eventsFrom n).count e = t.events.count e := by
      rw [h.count_eventsFrom hlt, if_pos ((h.mem_preorder n e.node).mpr (.inr habove)),
        h.count_events]
    have hpos := List.count_pos_iff.mpr he
    rw [← hsplit, List.count_append, List.count_append] at hcount
    rw [List.count_append] at hpos
    omega

/-- Walks over linked trees are as they should be: each event once, entering before leaving, and
everything below in between. -/
theorem Linked.isWalked (h : t.Linked) : t.IsWalked where
  visits n hn := List.count_eq_one_of_mem (h.nodup_preorder root) ((h.mem_preorder_root n).mpr hn)
  declarations n := (h.count_events _).trans (count_opening_declaration t n)
  enters n := (h.count_events _).trans (count_opening_enter t n)
  leaves n := (h.count_events _).trans (count_closing_leave t n)
  between _ hn := h.events_around hn

/-- Nodes that are added one after the other, each below one that is there, make up a tree with the
compilation unit as its root, and the walk over it visits each node once: it is told of each
declaration once, and each type is entered once and left once, with all that lies below it and
nothing else in between. No analyzer fails on the way. -/
theorem isWalked_built {additions : List Addition} (h : Fits additions) :
    let t := built additions
    t.IsBuiltFrom additions ∧ t.IsRooted ∧ t.IsWalked ∧
      ∀ config, ∃ found, ((Analyzer.new config).analyze t).result = .ok found := by
  obtain ⟨hbuilt, hgrown⟩ := isBuiltFrom_built h
  have hlinked := hgrown.linked
  exact ⟨hbuilt, hlinked.isRooted, hlinked.isWalked,
    fun config => ⟨_, Analyzer.result_analyze (Analyzer.finds_new hlinked config)⟩⟩

/-- Two types and then by turns what goes below the one and the other. -/
def turnsAdditions : List Addition :=
  let at_ (column : Nat) : Span := .at ⟨1, column⟩
  let int_ : TypeRef := .primitive "int"
  [⟨0, .classDef "A" [], at_ 1⟩, ⟨0, .enumDef "E" [], at_ 2⟩, ⟨1, .typeBody, at_ 3⟩,
    ⟨2, .typeBody, at_ 4⟩, ⟨3, .variableDef "x" [] int_, at_ 5⟩, ⟨4, .enumConstant "C", at_ 6⟩,
    ⟨3, .methodDef "f" [] .void, at_ 7⟩, ⟨7, .parameters, at_ 8⟩,
    ⟨5, .anonymousClass (.named "B"), at_ 9⟩, ⟨8, .parameterDef "x" [] int_, at_ 10⟩]

/-- A tree whose nodes were not added in the order of a walk: the walk is by its links all the same.
-/
theorem isWalked_turnsAdditions :
    Fits turnsAdditions ∧ (built turnsAdditions).IsRooted ∧ (built turnsAdditions).IsWalked ∧
      (built turnsAdditions).children 3 = [5, 7] ∧
      (built turnsAdditions).ancestors 9 = [5, 3, 1, 0] ∧
      (built turnsAdditions).events =
        [.enter 1, .declaration 5, .declaration 10, .leave 1, .enter 2, .enter 6, .leave 6,
          .leave 2] := by
  have hfits : Fits turnsAdditions := by
    unfold Fits
    decide
  obtain ⟨-, hrooted, hwalked, -⟩ := isWalked_built hfits
  exact ⟨hfits, hrooted, hwalked, by decide +kernel, by decide +kernel, by decide +kernel⟩

end SyntaxTree

end FieldShadow
