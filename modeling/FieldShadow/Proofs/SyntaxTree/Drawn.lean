import FieldShadow.Proofs.SyntaxTree.ReadBack
import FieldShadow.Proofs.Token.Place

/-!
# Outlines drawn from tokens

The nodes of an outline have their spans from the tokens that they are read from (`Drawn`). From
left to right they stand in the order of these tokens. A token begins one node with a name or some
nodes without one, so names come strictly one after the other (`Drawn.pairwise_before`).
-/

namespace FieldShadow

open Outline

/-- What declares a name has that name. -/
theorem NodeKind.name?_of_declares? {kind : NodeKind} {name : String} {k : DeclarationKind}
    (h : kind.declares? = some (name, k)) : kind.name? = some name := by
  cases kind <;> simp_all [declares?, name?]

/-- A type declares no variable. -/
theorem NodeKind.declares?_of_isType {kind : NodeKind} (h : kind.isType) :
    kind.declares? = none := by
  cases kind <;> simp_all [declares?, isType]

/-- What has no name stands for no token. -/
theorem NodeKind.nameToken?_of_name?_none {kind : NodeKind} (h : kind.name? = none) (s : Span) :
    kind.nameToken? s = none := by
  cases kind <;> simp_all [nameToken?, declares?, name?]

/-- Whether some outlines come from a row of tokens, each node in its turn: from an identifier that
names it, from the word and the name of a heading, or from a bracket or a word without a name. -/
inductive Drawn : List Lexeme → List Outline → Prop
  | passed (ls : List Lexeme) : Drawn ls []
  | append {ls ls' : List Lexeme} {os os' : List Outline} (h : Drawn ls os) (h' : Drawn ls' os') :
      Drawn (ls ++ ls') (os ++ os')
  | named {name : String} {s : Span} {ls : List Lexeme} {kind : NodeKind} {os : List Outline}
      (hkind : kind.name? = some name) (h : Drawn ls os) :
      Drawn (⟨.identifier name, s⟩ :: ls) [.node kind s os]
  | headed {first : Lexeme} {name : String} {s : Span} {ls ls' : List Lexeme} {kind : NodeKind}
      {os : List Outline} (hkind : kind.declares? = none) (h : Drawn ls' os) :
      Drawn (first :: ls ++ ⟨.identifier name, s⟩ :: ls') [.node kind (first.span.to s) os]
  | marked {l : Lexeme} {ls : List Lexeme} {kind : NodeKind} {os : List Outline}
      (hkind : kind.name? = none) (h : Drawn ls os) : Drawn (l :: ls) [.node kind l.span os]
  /-- A node around one other, from the token that this one begins with. -/
  | around {ls : List Lexeme} {kind inner : NodeKind} {s : Span} {os : List Outline}
      (hkind : kind.name? = none) (h : Drawn ls [.node inner s os]) :
      Drawn ls [.node kind s [.node inner s os]]

/-- A node that stands in front of another: it begins no later, and earlier if both have names. -/
def NodeKind.Before (part other : NodeKind × Span) : Prop :=
  part.2.start ≤ other.2.start ∧
    (part.1.name?.isSome → other.1.name?.isSome → part.2.start < other.2.start)

namespace Drawn

variable {ls : List Lexeme} {os : List Outline}

/-- The names of variables and parameters are tokens, in their order. -/
theorem names_sublist (h : Drawn ls os) : (namesAll os).Sublist ls := by
  induction h with
  | passed ls => exact List.nil_sublist _
  | append _ _ ih ih' =>
    rw [namesAll_append]
    exact ih.append ih'
  | @named name s ls kind os hkind _ ih =>
    cases hdeclares : kind.declares? with
    | none => simpa [NodeKind.nameToken?, hdeclares] using ih.cons _
    | some declared =>
      obtain ⟨name', k⟩ := declared
      obtain rfl := Option.some.inj (hkind.symm.trans (NodeKind.name?_of_declares? hdeclares))
      simpa [NodeKind.nameToken?, hdeclares] using ih
  | @headed first name s ls ls' kind os hkind _ ih =>
    have hname := ih.cons ⟨.identifier name, s⟩
    simpa [NodeKind.nameToken?, hkind]
      using hname.trans (List.sublist_append_right (first :: ls) _)
  | marked hkind _ ih => simpa [NodeKind.nameToken?_of_name?_none hkind] using ih.cons _
  | around hkind _ ih => simpa [NodeKind.nameToken?_of_name?_none hkind] using ih

/-- Every node begins where a token begins, and ends no earlier. -/
theorem exists_start (h : Drawn ls os)
    (hls : ls.Pairwise fun l l' => l.span.start < l'.span.start)
    (hspan : ∀ l ∈ ls, l.span.start ≤ l.span.stop) :
    ∀ part ∈ partsAll os, part.2.start ≤ part.2.stop ∧ ∃ l ∈ ls, part.2.start = l.span.start := by
  induction h with
  | passed ls => simp
  | append _ _ ih ih' =>
    obtain ⟨hls, hls', -⟩ := List.pairwise_append.mp hls
    obtain ⟨hspan, hspan'⟩ := List.forall_mem_append.mp hspan
    rw [partsAll_append]
    refine List.forall_mem_append.mpr ⟨fun part hpart => ?_, fun part hpart => ?_⟩
    · obtain ⟨hle, l, hl, hstart⟩ := ih hls hspan part hpart
      exact ⟨hle, l, List.mem_append_left _ hl, hstart⟩
    · obtain ⟨hle, l, hl, hstart⟩ := ih' hls' hspan' part hpart
      exact ⟨hle, l, List.mem_append_right _ hl, hstart⟩
  | named _ _ ih | marked _ _ ih =>
    obtain ⟨-, hls⟩ := List.pairwise_cons.mp hls
    obtain ⟨hself, hspan⟩ := List.forall_mem_cons.mp hspan
    rw [partsAll_singleton]
    refine List.forall_mem_cons.mpr ⟨⟨hself, _, List.mem_cons_self, rfl⟩, fun part hpart => ?_⟩
    obtain ⟨hle, l, hl, hstart⟩ := ih hls hspan part hpart
    exact ⟨hle, l, List.mem_cons_of_mem _ hl, hstart⟩
  -- a type's node starts at the first token of its heading, which comes before its name
  | @headed first name s ls ls' kind os _ _ ih =>
    obtain ⟨-, hls', hbefore⟩ := List.pairwise_append.mp hls
    obtain ⟨-, hspan'⟩ := List.forall_mem_append.mp hspan
    obtain ⟨hname, hspan'⟩ := List.forall_mem_cons.mp hspan'
    have hfirst := hbefore first List.mem_cons_self _ List.mem_cons_self
    rw [partsAll_singleton]
    refine List.forall_mem_cons.mpr
      ⟨⟨Position.le_trans (Position.le_of_lt hfirst) hname, first, by simp, rfl⟩,
        fun part hpart => ?_⟩
    obtain ⟨hle, l, hl, hstart⟩ := ih (List.pairwise_cons.mp hls').2 hspan' part hpart
    exact ⟨hle, l, List.mem_append_right _ (List.mem_cons_of_mem _ hl), hstart⟩
  | around _ _ ih =>
    have ih := ih hls hspan
    rw [partsAll_singleton] at ih ⊢
    rw [partsAll_singleton]
    exact List.forall_mem_cons.mpr ⟨(List.forall_mem_cons.mp ih).1, ih⟩

/-- A node at a token in front of those that others come from. -/
theorem before_of_mem (h : Drawn ls os)
    (hls : ls.Pairwise fun l l' => l.span.start < l'.span.start)
    (hspan : ∀ l ∈ ls, l.span.start ≤ l.span.stop) {part other : NodeKind × Span}
    (hpart : ∀ l ∈ ls, part.2.start < l.span.start) (hother : other ∈ partsAll os) :
    NodeKind.Before part other := by
  obtain ⟨-, l, hl, hstart⟩ := h.exists_start hls hspan other hother
  have hlt := hpart l hl
  rw [← hstart] at hlt
  exact ⟨Position.le_of_lt hlt, fun _ _ => hlt⟩

/-- The nodes stand one behind the other. -/
theorem pairwise_before (h : Drawn ls os)
    (hls : ls.Pairwise fun l l' => l.span.start < l'.span.start)
    (hspan : ∀ l ∈ ls, l.span.start ≤ l.span.stop) :
    (partsAll os).Pairwise NodeKind.Before := by
  induction h with
  | passed ls => simp
  | append h h' ih ih' =>
    obtain ⟨hls, hls', hbefore⟩ := List.pairwise_append.mp hls
    obtain ⟨hspan, hspan'⟩ := List.forall_mem_append.mp hspan
    rw [partsAll_append]
    refine List.pairwise_append.mpr
      ⟨ih hls hspan, ih' hls' hspan', fun part hpart other hother => ?_⟩
    obtain ⟨-, l, hl, hstart⟩ := h.exists_start hls hspan part hpart
    -- a node of the first half starts at one of its tokens, and these come before the second half
    exact h'.before_of_mem hls' hspan' (fun l' hl' => hstart ▸ hbefore l hl l' hl') hother
  | named _ h ih | marked _ h ih =>
    obtain ⟨hself, hls⟩ := List.pairwise_cons.mp hls
    obtain ⟨-, hspan⟩ := List.forall_mem_cons.mp hspan
    rw [partsAll_singleton]
    exact List.pairwise_cons.mpr
      ⟨fun other hother => h.before_of_mem hls hspan hself hother, ih hls hspan⟩
  | @headed first name s ls ls' kind os _ h ih =>
    obtain ⟨-, hls', hbefore⟩ := List.pairwise_append.mp hls
    obtain ⟨-, hspan'⟩ := List.forall_mem_append.mp hspan
    obtain ⟨-, hls'⟩ := List.pairwise_cons.mp hls'
    obtain ⟨-, hspan'⟩ := List.forall_mem_cons.mp hspan'
    have hself : ∀ l ∈ ls', first.span.start < l.span.start := fun l hl =>
      hbefore first List.mem_cons_self l (List.mem_cons_of_mem _ hl)
    rw [partsAll_singleton]
    exact List.pairwise_cons.mpr
      ⟨fun other hother => h.before_of_mem hls' hspan' hself hother, ih hls' hspan'⟩
  | @around ls kind inner s os hkind _ ih =>
    have ih := ih hls hspan
    rw [partsAll_singleton] at ih ⊢
    rw [partsAll_singleton]
    refine List.pairwise_cons.mpr ⟨List.forall_mem_cons.mpr ⟨?_, fun other hother => ?_⟩, ih⟩
    · -- the node around has the place of the first inner one, and no name that would have to come
      -- before
      exact ⟨Position.le_refl _, fun hnone => by simp [hkind] at hnone⟩
    · exact ⟨((List.pairwise_cons.mp ih).1 other hother).1, fun hnone => by simp [hkind] at hnone⟩

end Drawn

end FieldShadow
