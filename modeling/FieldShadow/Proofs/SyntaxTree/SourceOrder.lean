import FieldShadow.Proofs.Grammar.Builder.Unit
import FieldShadow.Proofs.Grammar.TokenOrder
import FieldShadow.Proofs.SyntaxTree.Placement
import FieldShadow.Proofs.Token.Text

/-!
# Nodes in source order

The numbers of the nodes of a tree that is read from a text are their places in a walk and in the
text (`SyntaxTree.inSourceOrder_of_ofSource`): a walk counts the nodes, what lies below a node has
the numbers right behind it, and spans begin no earlier than those of smaller numbers, later if both
nodes have names.

A parser that adds each node where it has read what makes the node (`Builder.unit`) could break this
at any time: its readers keep the numbers that they were given, so they could add below a node that
others have been added behind. That it never does is the content of `Builder.exists_unit_eq`. At
every step of the parser, whatever was tried and put back before, the tree is the one in which the
outlines that were read so far hang below the nodes that are still open; and in such a tree a walk
counts the nodes. What is said of spans comes from the grammar: the tokens that nodes take their
spans from are read in the order in which the nodes are added.
-/

namespace FieldShadow

open Outline

/-- A stretch of the first numbers has no gaps. -/
theorem eq_range'_of_infix {ids : List Nat} {n : Nat} (h : ids <:+: List.range n) :
    ∃ first, ids = List.range' first ids.length := by
  obtain ⟨front, rest, heq⟩ := h
  rw [List.range_eq_range', eq_comm, List.range'_eq_append_iff] at heq
  obtain ⟨k, -, heq, -⟩ := heq
  obtain ⟨m, -, -, hids⟩ := List.range'_eq_append_iff.mp heq.symm
  refine ⟨0 + m * 1, ?_⟩
  rw [hids, List.length_range']

namespace SyntaxTree

variable {t : SyntaxTree}

/-- Whether the numbers of the nodes are their places in a walk and in the text. A node is added
below the one that was added before it, or below one that this one lies in: all others are closed
by then. -/
structure InSourceOrder (t : SyntaxTree) : Prop where
  walk : t.preorder root = List.range t.size
  below : ∀ id < t.size, t.preorder id = List.range' id (t.preorder id).length
  parent_open : ∀ id p, t.parent? (id + 1) = some p → p = id ∨ p ∈ t.ancestors id
  start_le : ∀ i j m n, i ≤ j → t.node? i = some m → t.node? j = some n →
    m.span.start ≤ n.span.start
  start_lt : ∀ i j m n, i < j → t.node? i = some m → t.node? j = some n →
    m.kind.name?.isSome → n.kind.name?.isSome → m.span.start < n.span.start
  start_le_stop : ∀ id n, t.node? id = some n → n.span.start ≤ n.span.stop

/-! ## Walks below a node -/

/-- A walk from a node is a stretch of the walk from the root. -/
theorem Linked.preorder_infix (h : Linked t) {id : Nat} (hid : id < t.size) :
    t.preorder id <:+: t.preorder root := by
  induction id using Nat.strongRecOn with
  | _ id ih =>
    by_cases hroot : id = root
    · subst hroot
      exact List.infix_rfl
    · obtain ⟨p, hp⟩ := h.exists_parent id hroot hid
      have hlt := parent?_lt hp
      have hchild : id ∈ t.children p := (h.mem_children p id).mpr hp
      obtain ⟨elder, younger, hchildren⟩ := List.append_of_mem hchild
      have hinfix : t.preorder id <:+: t.preorder p := by
        refine ⟨p :: elder.flatMap t.preorder, younger.flatMap t.preorder, ?_⟩
        rw [t.preorder_eq p, hchildren]
        simp
      exact hinfix.trans (ih p hlt (by omega))

/-- If a walk from the root counts the nodes, so does a walk from every other node. -/
theorem Linked.preorder_eq_range' (h : Linked t) (hwalk : t.preorder root = List.range t.size)
    {id : Nat} (hid : id < t.size) :
    t.preorder id = List.range' id (t.preorder id).length := by
  obtain ⟨first, hids⟩ := eq_range'_of_infix (hwalk ▸ h.preorder_infix hid)
  have hfirst : id = first := by
    rw [t.preorder_eq id, List.length_cons, List.range'_succ] at hids
    exact (List.cons.inj hids).1
  rw [hids, hfirst, List.length_range']

/-- If a walk from every node counts on from it, only nodes that are open get children: those that
the last node lies in, and that node itself. -/
theorem Linked.parent_open (h : Linked t)
    (hbelow : ∀ id < t.size, t.preorder id = List.range' id (t.preorder id).length) {id p : Nat}
    (hp : t.parent? (id + 1) = some p) : p = id ∨ p ∈ t.ancestors id := by
  have hlt : p < id + 1 := parent?_lt hp
  have hsize : id + 1 < t.size := lt_size_of_parent? hp
  have hchild : id + 1 ∈ t.preorder p :=
    (h.mem_preorder p (id + 1)).mpr (.inr (by simp [ancestors_of_parent? hp]))
  -- the walk from the parent reaches the child, so it comes past all numbers in between
  have hmem : id ∈ t.preorder p := by
    rw [hbelow p (by omega), List.mem_range'_1] at hchild ⊢
    omega
  exact ((h.mem_preorder p id).mp hmem).imp_left Eq.symm

/-! ## Spans along a walk -/

/-- The kinds and spans of the nodes by their numbers are those of the outlines from left to
right. -/
theorem filterMap_range_part? (os : List Outline) :
    (List.range (ofOutlines os).size).filterMap (ofOutlines os).part? =
      (.compilationUnit, .at ⟨1, 1⟩) :: partsAll os := by
  have hroot := lt_size_of_kind? (grown_ofOutlines os).linked.kind_root
  rw [← preorder_ofOutlines, filterMap_preorder_part? hroot, outline_ofOutlines, parts_node]

/-- The part of a node is its kind and its span. -/
theorem part?_of_node? {id : Nat} {n : Node} (h : t.node? id = some n) :
    t.part? id = some (n.kind, n.span) := by
  rw [part?, h]
  rfl

/-- What holds of each two parts, one behind the other, holds of each two nodes with numbers in this
order. -/
theorem of_pairwise_part? {R : NodeKind × Span → NodeKind × Span → Prop}
    (h : ((List.range t.size).filterMap t.part?).Pairwise R) {i j : Nat} {m n : Node} (hlt : i < j)
    (hm : t.node? i = some m) (hn : t.node? j = some n) : R (m.kind, m.span) (n.kind, n.span) := by
  have hj : j < t.size := Array.getElem?_eq_some_iff.mp hn |>.1
  have hpairs := List.pairwise_iff_getElem.mp (List.pairwise_filterMap.mp h) i j
    (by rw [List.length_range]; omega) (by rwa [List.length_range]) hlt
  rw [List.getElem_range, List.getElem_range] at hpairs
  exact hpairs _ (part?_of_node? hm) _ (part?_of_node? hn)

/-- A tree is in the order of the source if its outlines are, from left to right: numbers, walks and
parts go together. -/
theorem inSourceOrder_ofOutlines {os : List Outline}
    (hbefore : ((.compilationUnit, .at ⟨1, 1⟩) :: partsAll os).Pairwise NodeKind.Before)
    (hspan : ∀ part ∈ partsAll os, part.2.start ≤ part.2.stop) :
    (ofOutlines os).InSourceOrder := by
  have hlinked := (grown_ofOutlines os).linked
  have hwalk := preorder_ofOutlines os
  have hbelow := fun (id : Nat) (hid : id < (ofOutlines os).size) =>
    hlinked.preorder_eq_range' hwalk hid
  -- identities are given in the order of the walk, so the parts are the nodes in order of identity
  rw [← filterMap_range_part?] at hbefore
  exact
    { walk := hwalk
      below := hbelow
      parent_open := fun _ _ hp => hlinked.parent_open hbelow hp
      start_le := by
        intro i j m n hle hm hn
        rcases Nat.lt_or_eq_of_le hle with hlt | rfl
        · exact (of_pairwise_part? hbefore hlt hm hn).1
        · obtain rfl := Option.some.inj (hm.symm.trans hn)
          exact Position.le_refl _
      start_lt := fun i j m n hlt hm hn => (of_pairwise_part? hbefore hlt hm hn).2
      start_le_stop := by
        intro id n hn
        have hid : id < (ofOutlines os).size := Array.getElem?_eq_some_iff.mp hn |>.1
        have hmem : (n.kind, n.span) ∈ (.compilationUnit, .at ⟨1, 1⟩) :: partsAll os := by
          rw [← filterMap_range_part?]
          exact List.mem_filterMap.mpr ⟨id, List.mem_range.mpr hid, part?_of_node? hn⟩
        rcases List.mem_cons.mp hmem with heq | hmem
        · obtain ⟨-, hs⟩ := Prod.mk.inj heq
          rw [hs]
          exact Position.le_refl _
        · exact hspan _ hmem }

/-! ## Trees of texts -/

/-- The tree of a text has below its root the declarations that are read from the tokens. -/
theorem exists_declarations_of_next {ls : List Lexeme}
    (h : (Parser.ofLexemes ls).next.1 = .ok t) :
    ∃ r, (Cursor.ofLexemes ls).declarations = .ok r ∧ t = .ofOutlines r.value := by
  rcases (Parser.ofLexemes ls).next_cases with ⟨e, he, -⟩ | ⟨r, -, hr, hnext⟩ | ⟨e, -, -, hnext⟩
  · cases he
  · rw [hnext] at h
    exact ⟨r, hr, (Except.ok.inj h).symm⟩
  · rw [hnext] at h
    cases h

/-- The outlines of a text are drawn from its tokens, whose places are in order. -/
theorem inSourceOrder_of_declarations {source : String} {ls : List Lexeme}
    {r : Cursor.From (.ofLexemes ls) (List Outline)} (hls : tokenize source = .ok ls)
    (hr : (Cursor.ofLexemes ls).declarations = .ok r) : (ofOutlines r.value).InSourceOrder := by
  have hspells := spells_of_tokenize hls
  have hsublist := Cursor.pending_ofLexemes_sublist ls
  have hstarts := ((pairwise_span hls).imp And.left).sublist hsublist
  have hspan : ∀ l ∈ (Cursor.ofLexemes ls).pending, l.span.start ≤ l.span.stop :=
    fun l hl => hspells.start_le_stop l (hsublist.subset hl)
  have hdrawn := Cursor.drawn_of_declarations hr
  have hparts := hdrawn.exists_start hstarts hspan
  refine inSourceOrder_ofOutlines (List.pairwise_cons.mpr ⟨fun part hpart => ⟨?_, nofun⟩,
    hdrawn.pairwise_before hstarts hspan⟩) fun part hpart => (hparts part hpart).1
  obtain ⟨-, l, hl, hstart⟩ := hparts part hpart
  rw [hstart]
  exact hspells.le_start l (hsublist.subset hl)

/-- Every tree that is read from a text is the one that the parser builds which adds its nodes while
it reads, called once at the first token. The numbers of its nodes, which tell when each was added,
are their places in a walk from the root and their places in the text. -/
theorem inSourceOrder_of_ofSource {source : String} (h : ofSource source = .ok t) :
    (∃ ls s, tokenize source = .ok ls ∧
      Builder.unit (Builder.start (.ofLexemes ls)) = some (.ok t, s)) ∧
    t.InSourceOrder := by
  refine ⟨Builder.ofSource_eq_ok_iff.mp h, ?_⟩
  obtain ⟨ls, hls, hnext⟩ := Builder.exists_tokens_of_ofSource h
  obtain ⟨r, hr, rfl⟩ := exists_declarations_of_next hnext
  exact inSourceOrder_of_declarations hls hr

/-- The tree of this text is the one that is left by a parser that adds nodes as it goes, and is in
the order of the source. -/
theorem inSourceOrder_workshopSource :
    ∃ t, ofSource workshopSource = .ok t ∧ t.size = 19 ∧
      (∃ ls s, tokenize workshopSource = .ok ls ∧
        Builder.unit (Builder.start (.ofLexemes ls)) = some (.ok t, s)) ∧
      t.InSourceOrder := by
  have hread : (ofSource workshopSource).toOption.any fun t => t.size = 19 := by
    decide +kernel
  obtain ⟨t, ht, hsize⟩ := exists_ok_of_any hread
  exact ⟨t, ht, of_decide_eq_true hsize, inSourceOrder_of_ofSource ht⟩

end SyntaxTree

end FieldShadow
