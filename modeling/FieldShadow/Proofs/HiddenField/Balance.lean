import FieldShadow.Proofs.HiddenField.Reuse
import Mathlib.Data.List.Forall2

/-!
# The stack during a walk

When a walk comes to an event, the scope stack is a function of the event alone (`scopesBefore`):
it has a frame for each class, enum and enum constant above the node, and when a type is left its
own frame on top of these (`finds_before`). The event that leaves a type has the one that entered it
before it, with nothing between the two but events of nodes below the type
(`exists_enter_of_leave`), so the frame that is taken off is the one that was put on.

## Shape of the argument

The events of a walk from a node are what is told on entering it, the walks from its children, and
what is told on leaving it (`EventAt`). An event of a walk stands in one of the three, so statements
about what comes before an event are proved by going down to it: what stands before it is what is
told on entering the nodes above, and the walks from their children further left.

Such a walk from a child gives back the stack that it began with (`finds_below`). So of everything
before an event only the nodes above it have left a frame.
-/

namespace FieldShadow

/-- The node of an event. -/
def WalkEvent.node : WalkEvent → Nat
  | .enter node | .leave node | .declaration node => node

/-! ## Pieces of a walk -/

namespace SyntaxTree

variable {t : SyntaxTree}

/-- The event of a node that comes before all events below it, if there is one. -/
def opening (t : SyntaxTree) (node : Nat) : List WalkEvent :=
  match t.kind? node with
  | some (.classDef ..) | some (.enumDef ..) | some (.enumConstant _) => [.enter node]
  | some (.variableDef ..) | some (.parameterDef ..) => [.declaration node]
  | _ => []

/-- The event of a node that comes after all events below it, if there is one. -/
def closing (t : SyntaxTree) (node : Nat) : List WalkEvent :=
  match t.kind? node with
  | some (.classDef ..) | some (.enumDef ..) | some (.enumConstant _) => [.leave node]
  | _ => []

/-- The walk from a node is what opens it, the walks from its children and what closes it. -/
theorem eventsFrom_eq_append {node : Nat} (h : node < t.size) :
    t.eventsFrom node =
      t.opening node ++ ((t.children node).flatMap t.eventsFrom ++ t.closing node) := by
  obtain ⟨kind, hkind⟩ := exists_kind h
  rw [eventsFrom_eq hkind, opening, closing, hkind]
  cases kind <;> simp [NodeKind.eventsAround]

/-- At most one event opens a node. -/
theorem length_opening_le (t : SyntaxTree) (node : Nat) : (t.opening node).length ≤ 1 := by
  unfold opening
  split <;> simp

/-- At most one event closes a node. -/
theorem length_closing_le (t : SyntaxTree) (node : Nat) : (t.closing node).length ≤ 1 := by
  unfold closing
  split <;> simp

/-- What opens a node is an event of it. -/
theorem node_of_mem_opening {node : Nat} {e : WalkEvent} (h : e ∈ t.opening node) :
    e.node = node := by
  unfold opening at h
  split at h <;> simp_all [WalkEvent.node]

/-- What closes a node is an event of it. -/
theorem node_of_mem_closing {node : Nat} {e : WalkEvent} (h : e ∈ t.closing node) :
    e.node = node := by
  unfold closing at h
  split at h <;> simp_all [WalkEvent.node]

/-- A node that is left is one that is entered. -/
theorem opening_of_leave {node : Nat} (h : .leave node ∈ t.closing node) :
    t.opening node = [.enter node] := by
  unfold closing at h
  unfold opening
  split at h <;> simp_all

/-- No node is left before what lies below it. -/
theorem leave_not_mem_opening {node n : Nat} : WalkEvent.leave n ∉ t.opening node := by
  unfold opening
  split <;> simp

/-- The events of a walk from a node are of the node or of nodes below it. -/
theorem Linked.node_of_mem_eventsFrom (h : t.Linked) {node : Nat} (hlt : node < t.size)
    {e : WalkEvent} (he : e ∈ t.eventsFrom node) : e.node = node ∨ node ∈ t.ancestors e.node := by
  induction node using t.below_induction with
  | step node ih =>
    rw [eventsFrom_eq_append hlt, List.mem_append, List.mem_append] at he
    rcases he with he | he | he
    · exact .inl (node_of_mem_opening he)
    · obtain ⟨c, hc, he⟩ := List.mem_flatMap.mp he
      have hanc := h.ancestors_child hc
      rcases ih c hc (lt_of_mem_children hc).2 he with heq | hmem
      · exact .inr (by simp [heq, hanc])
      · exact .inr (mem_ancestors_trans hmem (by simp [hanc]))
    · exact .inl (node_of_mem_closing he)

/-- Only what is closed is left. -/
theorem leave_mem_closing {node : Nat} (hlt : node < t.size) {n : Nat}
    (h : .leave n ∈ t.eventsFrom node) : .leave n ∈ t.closing n := by
  induction node using t.below_induction with
  | step node ih =>
    rw [eventsFrom_eq_append hlt, List.mem_append, List.mem_append] at h
    rcases h with hopening | hbelow | hclosing
    · exact absurd hopening leave_not_mem_opening
    · obtain ⟨c, hc, hmem⟩ := List.mem_flatMap.mp hbelow
      exact ih c hc (lt_of_mem_children hc).2 hmem
    · obtain rfl : n = node := node_of_mem_closing hclosing
      exact hclosing

/-- Where an event stands in a walk: it is of the node itself, or it belongs to the walk from a
child, behind those from the children before. -/
inductive EventAt (t : SyntaxTree) (node : Nat) : (before : List WalkEvent) → WalkEvent → Prop
  | opening {e : WalkEvent} (he : e ∈ t.opening node) : EventAt t node [] e
  | closing {e : WalkEvent} (he : e ∈ t.closing node) :
      EventAt t node (t.opening node ++ (t.children node).flatMap t.eventsFrom) e
  | below {front back : List Nat} {c : Nat} {before after : List WalkEvent} {e : WalkEvent}
      (hchildren : t.children node = front ++ c :: back)
      (hbelow : t.eventsFrom c = before ++ e :: after) :
      EventAt t node (t.opening node ++ (front.flatMap t.eventsFrom ++ before)) e

/-- A place in two rows behind each other is in the first or in the second. -/
theorem split_append {α : Type} {xs ys before after : List α} {a : α}
    (h : xs ++ ys = before ++ a :: after) :
    (∃ rest, xs = before ++ a :: rest) ∨
      ∃ inner, before = xs ++ inner ∧ ys = inner ++ a :: after := by
  rcases List.append_eq_append_iff.mp h with ⟨inner, rfl, hys⟩ | ⟨rest, hxs, hrest⟩
  · exact .inr ⟨inner, rfl, hys⟩
  · cases rest with
    | nil => exact .inr ⟨[], by simpa using hxs.symm, hrest.symm⟩
    | cons a' rest =>
      obtain ⟨rfl, -⟩ := List.cons.inj hrest
      exact .inl ⟨rest, hxs⟩

/-- A place in rows behind each other is in one of them, behind all of those before it. -/
theorem split_flatMap {α β : Type} {f : α → List β} {as : List α} {before after : List β} {b : β}
    (h : as.flatMap f = before ++ b :: after) :
    ∃ front a back inner rest, as = front ++ a :: back ∧ before = front.flatMap f ++ inner ∧
      f a = inner ++ b :: rest := by
  induction as generalizing before with
  | nil => simp at h
  | cons a as ih =>
    rw [List.flatMap_cons] at h
    rcases split_append h with ⟨rest, hhead⟩ | ⟨inner, rfl, htail⟩
    · exact ⟨[], a, as, before, rest, rfl, rfl, hhead⟩
    · obtain ⟨front, a', back, inner, rest, rfl, rfl, hsplit⟩ := ih htail
      exact ⟨a :: front, a', back, inner, rest, rfl, by simp, hsplit⟩

/-- The place of an element in a row of at most one is the start. -/
theorem split_of_length_le_one {α : Type} {xs before after : List α} {a : α}
    (hlength : xs.length ≤ 1) (h : xs = before ++ a :: after) : before = [] ∧ a ∈ xs := by
  rw [h, List.length_append, List.length_cons] at hlength
  exact ⟨List.length_eq_zero_iff.mp (by omega), by simp [h]⟩

/-- Every event of a walk stands in one of the three ways: it opens the node, closes it, or lies in
the walk from a child. -/
theorem eventAt {node : Nat} (hlt : node < t.size) {before after : List WalkEvent} {e : WalkEvent}
    (h : t.eventsFrom node = before ++ e :: after) : t.EventAt node before e := by
  rw [eventsFrom_eq_append hlt] at h
  rcases split_append h with ⟨rest, hopening⟩ | ⟨inner, rfl, hinner⟩
  · obtain ⟨rfl, he⟩ := split_of_length_le_one (length_opening_le t node) hopening
    exact .opening he
  · rcases split_append hinner with ⟨rest, hbelow⟩ | ⟨inner, rfl, hclosing⟩
    · obtain ⟨front, c, back, inner, rest, hchildren, rfl, hsplit⟩ := split_flatMap hbelow
      exact .below hchildren hsplit
    · obtain ⟨rfl, he⟩ := split_of_length_le_one (length_closing_le t node) hclosing
      rw [List.append_nil]
      exact .closing he

/-- Before a type is left it was entered, and nothing came between the two but events of nodes
below it. -/
theorem Linked.exists_enter_of_leave (h : t.Linked) {node : Nat} (hlt : node < t.size)
    {before after : List WalkEvent} {n : Nat}
    (hsplit : t.eventsFrom node = before ++ .leave n :: after) :
    ∃ outer inner, before = outer ++ .enter n :: inner ∧
      ∀ e ∈ inner, n ∈ t.ancestors e.node := by
  induction node using t.below_induction generalizing before after with
  | step node ih =>
    generalize he : WalkEvent.leave n = e at hsplit
    -- the event is told on entering the node, below it, or on leaving it
    cases eventAt hlt hsplit with
    | opening hmem => exact absurd (he ▸ hmem) leave_not_mem_opening
    | closing hmem =>
      subst he
      obtain rfl : n = node := node_of_mem_closing hmem
      refine ⟨[], (t.children n).flatMap t.eventsFrom, by rw [opening_of_leave hmem]; rfl, ?_⟩
      intro e he
      obtain ⟨c, hc, he⟩ := List.mem_flatMap.mp he
      have hanc := h.ancestors_child hc
      rcases h.node_of_mem_eventsFrom (lt_of_mem_children hc).2 he with heq | hmem
      · simp [heq, hanc]
      · -- what lies below a child lies below the node
        exact mem_ancestors_trans hmem (by simp [hanc])
    | @below front back c before after _ hchildren hbelow =>
      subst he
      have hc : c ∈ t.children node := by simp [hchildren]
      obtain ⟨outer, inner, rfl, hinner⟩ := ih c hc (lt_of_mem_children hc).2 hbelow
      exact ⟨t.opening node ++ (front.flatMap t.eventsFrom ++ outer), inner, by simp, hinner⟩

end SyntaxTree

/-! ## The stack that belongs to an event -/

namespace HiddenFieldRule

open SyntaxTree Outcome

variable {t : SyntaxTree}

/-- The scope stack of what lies right below a node. -/
def scopesBelow (t : SyntaxTree) (node : Nat) : ScopeStack :=
  { scopesAt t node with above := (frameAt? t node).toList ++ (scopesAt t node).above }

/-- The scope stack that an event is met with. -/
def scopesBefore (t : SyntaxTree) : WalkEvent → ScopeStack
  | .enter node | .declaration node => scopesAt t node
  | .leave node => scopesBelow t node

/-- The scope stack that an event leads to. -/
def scopesAfter (t : SyntaxTree) : WalkEvent → ScopeStack
  | .leave node | .declaration node => scopesAt t node
  | .enter node => scopesBelow t node

/-- Below a node with a frame that frame is on top. -/
theorem scopesBelow_of_frame {node : Nat} {f : ScopeFrame} (h : frameAt? t node = some f) :
    scopesBelow t node = { scopesAt t node with above := f :: (scopesAt t node).above } := by
  rw [scopesBelow, h]
  rfl

/-- A node without a frame leaves the stack as it is. -/
theorem scopesBelow_of_no_frame {node : Nat} (h : frameAt? t node = none) :
    scopesBelow t node = scopesAt t node := by
  rw [scopesBelow, h]
  rfl

/-- The stack at a child is the one below its parent. -/
theorem scopesAt_of_mem_children (h : t.Linked) {node c : Nat} (hc : c ∈ t.children node) :
    scopesAt t c = scopesBelow t node := by
  rw [scopesAt_child (h.ancestors_child hc), scopesBelow]
  cases frameAt? t node <;> rfl

/-- The frames of what lies right below a node are below those of a node further down. -/
theorem scopesBelow_suffix {node n : Nat} (h : n ∈ t.ancestors node) :
    (scopesBelow t n).above <:+ (scopesAt t node).above := by
  obtain ⟨inner, hancestors, -⟩ := ancestors_eq_append h
  refine ⟨inner.filterMap (frameAt? t), ?_⟩
  rw [scopesBelow, scopesAt, scopesAt, hancestors, List.filterMap_append, List.filterMap_cons]
  cases frameAt? t n <;> rfl

/-- An event below a node is met with at least the frames that lie below the node. -/
theorem scopesBefore_suffix {n : Nat} {e : WalkEvent} (h : n ∈ t.ancestors e.node) :
    (scopesBelow t n).above <:+ (scopesBefore t e).above := by
  cases e with
  | enter | declaration => exact scopesBelow_suffix h
  | leave => exact (scopesBelow_suffix h).trans (List.suffix_append _ _)

/-- What opens a node is met with the stack at the node. -/
theorem scopesBefore_of_mem_opening {node : Nat} {e : WalkEvent} (h : e ∈ t.opening node) :
    scopesBefore t e = scopesAt t node := by
  unfold opening at h
  split at h <;> simp_all [scopesBefore]

/-- What closes a node is met with the stack below it. -/
theorem scopesBefore_of_mem_closing {node : Nat} {e : WalkEvent} (h : e ∈ t.closing node) :
    scopesBefore t e = scopesBelow t node := by
  unfold closing at h
  split at h <;> simp_all [scopesBefore]

/-- A node with a frame is entered. -/
theorem opening_of_frame {node : Nat} {f : ScopeFrame} (h : frameAt? t node = some f) :
    t.opening node = [.enter node] := by
  obtain ⟨kind, _, _, hkind, hframe, -⟩ := frameAt?_eq_some h
  cases kind <;> simp_all [frame?, opening]

/-- A node without a frame is declared or passed over. -/
theorem opening_of_no_frame {node : Nat} (h : frameAt? t node = none) :
    t.opening node = [] ∨ t.opening node = [.declaration node] := by
  have hsome := isSome_frameAt? t node
  unfold opening
  split <;> simp_all [NodeKind.holdsFields]

/-- A node that is left has a frame, so that there is one to pop. -/
theorem exists_frame_of_leave {node : Nat} (hlt : node < t.size) {n : Nat}
    (h : .leave n ∈ t.eventsFrom node) : ∃ f, frameAt? t n = some f := by
  have hclosing := leave_mem_closing hlt h
  refine Option.isSome_iff_exists.mp ((isSome_frameAt? t n).mpr ?_)
  unfold closing at hclosing
  split at hclosing <;> simp_all [NodeKind.holdsFields]

/-- An event that is met with its stack leads to the stack behind it. -/
theorem finds_step {r : HiddenFieldRule} {e : WalkEvent} (hr : r.scopes = scopesBefore t e) :
    ∃ found, (step t r e).Finds found { r with scopes := scopesAfter t e } := by
  have hnone : ∀ {node}, frameAt? t node = none → (t.kind? node).bind frame? = none :=
    Option.map_eq_none_iff.mp
  cases e with
  | enter node =>
    -- only nodes with a frame change the stack
    cases hframe : frameAt? t node with
    | some f =>
      rw [scopesAfter, scopesBelow_of_frame hframe, ← show r.scopes = scopesAt t node from hr]
      exact ⟨_, finds_enter r hframe⟩
    | none =>
      rw [scopesAfter, scopesBelow_of_no_frame hframe, ← show r.scopes = scopesAt t node from hr,
        step, enter, hnone hframe]
      exact ⟨_, .quiet r⟩
  | leave node =>
    cases hframe : frameAt? t node with
    | some f =>
      rw [scopesBefore, scopesBelow_of_frame hframe] at hr
      obtain ⟨settings, scopes⟩ := r
      obtain rfl := hr
      exact ⟨_, finds_leave ⟨settings, scopesAt t node⟩ hframe f⟩
    | none =>
      rw [scopesBefore, scopesBelow_of_no_frame hframe] at hr
      rw [scopesAfter, ← hr, step, leave, hnone hframe]
      exact ⟨_, .quiet r⟩
  | declaration node =>
    rw [scopesAfter, ← show r.scopes = scopesAt t node from hr]
    exact ⟨_, finds_declare r hr⟩

/-- What opens a node leads to the stack of what lies below it. -/
theorem finds_opening {node : Nat} {r : HiddenFieldRule} (hr : r.scopes = scopesAt t node) :
    ∃ found, (runAll (step t) r (t.opening node)).Finds found
      { r with scopes := scopesBelow t node } := by
  cases hframe : frameAt? t node with
  | some f =>
    obtain ⟨_, henter⟩ := finds_step (t := t) (e := .enter node) hr
    rw [opening_of_frame hframe]
    exact ⟨_, henter.runAll_cons (.quiet _)⟩
  | none =>
    rw [scopesBelow_of_no_frame hframe, ← hr]
    rcases opening_of_no_frame hframe with hnone | hdeclaration
    · rw [hnone]
      exact ⟨_, .quiet r⟩
    · rw [hdeclaration]
      exact ⟨_, (finds_declare r hr).runAll_cons (.quiet r)⟩

/-- Walks from children of a node keep the stack of what lies right below the node. -/
theorem finds_below (h : t.Linked) {node : Nat} {r : HiddenFieldRule}
    (hr : r.scopes = scopesBelow t node) {children : List Nat}
    (hchildren : children ⊆ t.children node) :
    ∃ found, (runAll (step t) r (children.flatMap t.eventsFrom)).Finds found r := by
  refine ⟨_, finds_children fun c hc => ?_⟩
  have hmem := hchildren hc
  exact finds_eventsFrom h (lt_of_mem_children hmem).2 (by rw [hr, scopesAt_of_mem_children h hmem])

/-- A walk from a node that starts with the stack of the node comes to each event with the stack of
the event. -/
theorem finds_before (h : t.Linked) {node : Nat} (hlt : node < t.size) {r : HiddenFieldRule}
    (hr : r.scopes = scopesAt t node) {before after : List WalkEvent} {e : WalkEvent}
    (hsplit : t.eventsFrom node = before ++ e :: after) :
    ∃ found, (runAll (step t) r before).Finds found { r with scopes := scopesBefore t e } := by
  induction node using t.below_induction generalizing r before after with
  | step node ih =>
    obtain ⟨_, hopening⟩ := finds_opening hr
    cases eventAt hlt hsplit with
    | opening he =>
      rw [scopesBefore_of_mem_opening he, ← hr]
      exact ⟨_, .quiet r⟩
    | closing he =>
      obtain ⟨_, hbelow⟩ := finds_below h (r := { r with scopes := scopesBelow t node }) rfl
        (List.Subset.refl _)
      rw [scopesBefore_of_mem_closing he]
      exact ⟨_, hopening.runAll_append hbelow⟩
    | below hchildren hbelow =>
      -- the children in front have given the stack back, so the inner walk starts from the same one
      have hfront := finds_below h (r := { r with scopes := scopesBelow t node }) rfl
        (hchildren ▸ List.subset_append_left _ _)
      obtain ⟨_, hfront⟩ := hfront
      have hc := hchildren ▸ List.mem_append_right _ List.mem_cons_self
      obtain ⟨_, hinner⟩ := ih _ hc (lt_of_mem_children hc).2
        (r := { r with scopes := scopesBelow t node }) (scopesAt_of_mem_children h hc).symm hbelow
      exact ⟨_, hopening.runAll_append (hfront.runAll_append hinner)⟩

end HiddenFieldRule

/-! ## Frames and the types that they are of -/

namespace SyntaxTree

variable {t : SyntaxTree}

/-- The classes, enums and enum constants above a node, innermost first. -/
def typesAbove (t : SyntaxTree) (node : Nat) : List Nat :=
  (t.ancestors node).filter fun a => (t.kind? a).any NodeKind.holdsFields

/-- Whether the body of a type has a variable of this name right below it, static or not. -/
def HasVariable (t : SyntaxTree) (type : Nat) (name : String) (isStatic : Bool) : Prop :=
  ∃ body, t.typeBody? type = some body ∧ ∃ c ∈ t.children body, ∃ ms varType,
    t.kind? c = some (.variableDef name ms varType) ∧ (.static ∈ ms ↔ isStatic = true)

/-- Whether a frame is that of a type: only classes make it static and give it a name, and it has
the variables of the body of the type. -/
structure IsFrame (t : SyntaxTree) (type : Nat) (f : ScopeFrame) : Prop where
  isStatic : f.isStatic = true ↔
    ∃ name ms, t.kind? type = some (.classDef name ms) ∧ .static ∈ ms
  typeName : ∀ name, f.typeName? = some name ↔ ∃ ms, t.kind? type = some (.classDef name ms)
  staticFields : ∀ name, name ∈ f.staticFields ↔ t.HasVariable type name true
  instanceFields : ∀ name, name ∈ f.instanceFields ↔ t.HasVariable type name false

/-- Whether a scope stack has the frames of the types above a node on that of the compilation unit,
and no other frames. -/
structure IsChain (t : SyntaxTree) (node : Nat) (s : ScopeStack) : Prop where
  base : s.base = .new true none
  above : List.Forall₂ t.IsFrame (t.typesAbove node) s.above

/-- A field is a variable, static exactly if its modifiers say so. -/
theorem field?_eq_some {kind : NodeKind} {name : String} {isStatic : Bool} :
    kind.field? = some (name, isStatic) ↔
      ∃ ms varType, kind = .variableDef name ms varType ∧ (.static ∈ ms ↔ isStatic = true) := by
  constructor
  · intro h
    cases kind with
    | variableDef other ms varType =>
      obtain ⟨rfl, hstatic⟩ := Prod.mk.inj (Option.some.inj h)
      exact ⟨ms, varType, rfl, by rw [← hstatic, List.contains_iff_mem]⟩
    | _ => exact nomatch h
  · rintro ⟨ms, varType, rfl, hstatic⟩
    have hcontains : ms.contains .static = isStatic :=
      Bool.eq_iff_iff.mpr (List.contains_iff_mem.trans hstatic)
    rw [NodeKind.field?, hcontains]

/-- The fields of a type are the variables right below its body. -/
theorem mem_fields {type : Nat} {name : String} {isStatic : Bool} :
    (name, isStatic) ∈ t.fields type ↔ t.HasVariable type name isStatic := by
  unfold fields HasVariable
  cases t.typeBody? type with
  | none => simp
  | some body => simp [List.mem_filterMap, Option.bind_eq_some_iff, field?_eq_some]

end SyntaxTree

namespace HiddenFieldRule

open SyntaxTree

variable {t : SyntaxTree}

/-- The frame that the rule makes of a type is a frame of that type. -/
theorem isFrame_of_frameAt? {type : Nat} {f : ScopeFrame} (h : frameAt? t type = some f) :
    t.IsFrame type f := by
  have hholds := (isSome_frameAt? t type).mp (by rw [h]; rfl)
  refine ⟨?_, fun name => ?_, fun name => ?_, fun name => ?_⟩
  · rw [isStatic_frameAt? h, IsStaticClass]
    cases hkind : t.kind? type with
    | none => simp
    | some kind => cases kind <;> simp [NodeKind.isStaticClass]
  · rw [typeName?_frameAt? h]
    cases hkind : t.kind? type with
    | none => simp
    | some kind => cases kind <;> simp [NodeKind.className?]
  · rw [mem_staticFields_frameAt? h, DeclaresField, mem_fields]
    exact and_iff_right hholds
  · rw [mem_instanceFields_frameAt? h, DeclaresField, mem_fields]
    exact and_iff_right hholds

/-- The stack at a node has a frame for each type above it and no others, by the filter that picks
both from the ancestors. -/
theorem isChain_scopesAt (t : SyntaxTree) (node : Nat) : t.IsChain node (scopesAt t node) := by
  refine ⟨rfl, ?_⟩
  rw [typesAbove, scopesAt]
  induction t.ancestors node with
  | nil => exact .nil
  | cons a as ih =>
    have hholds := isSome_frameAt? t a
    cases hframe : frameAt? t a with
    | none =>
      rw [hframe] at hholds
      rw [List.filter_cons_of_neg (by simp [← hholds]), List.filterMap_cons_none hframe]
      exact ih
    | some f =>
      rw [hframe] at hholds
      have hpos : (t.kind? a).any NodeKind.holdsFields = true := hholds.mp rfl
      rw [List.filter_cons, if_pos hpos, List.filterMap_cons_some hframe]
      exact .cons (isFrame_of_frameAt? hframe) ih

end HiddenFieldRule

/-! ## A whole walk -/

namespace Analyzer

open SyntaxTree Outcome HiddenFieldRule

/-- Whether a walk goes well up to some point, and the only rule has this scope stack there. -/
def Reaches (a : Analyzer) (t : SyntaxTree) (events : List WalkEvent) (s : ScopeStack) : Prop :=
  let o := runAll (dispatch a.config t) (begin a.config a.registry.rules) events
  o.failure? = none ∧ o.state.map HiddenFieldRule.scopes = [s]

/-- An analyzer with the one rule starts with that rule, as it is begun. -/
theorem begin_eq {a : Analyzer} {r : HiddenFieldRule} (ha : a.registry.rules = [r])
    (hon : HiddenFieldRule.id ∉ a.config.disabledRules) :
    begin a.config a.registry.rules = [r.begin] := by
  simp [ha, begin, (isEnabled_iff a.config r).mpr hon]

/-- What the rule comes to on its own is what the analyzer reaches with it. -/
theorem reaches_of_finds {a : Analyzer} {r : HiddenFieldRule} (ha : a.registry.rules = [r])
    (hon : HiddenFieldRule.id ∉ a.config.disabledRules) {t : SyntaxTree}
    {events : List WalkEvent} {found : List Diagnostic} {s : ScopeStack}
    (h : (runAll (step t) r.begin events).Finds found { r with scopes := s }) :
    a.Reaches t events s := by
  have hfinds := finds_dispatch hon h
  rw [Reaches, begin_eq ha hon]
  exact ⟨hfinds.failure_eq, by rw [hfinds.state_eq]; rfl⟩

/-- At the root there is no type above, so a begun rule has the stack of the root. -/
theorem scopes_begin {t : SyntaxTree} (ht : t.Linked) (r : HiddenFieldRule) :
    r.begin.scopes = scopesAt t root := by
  simp [HiddenFieldRule.begin, scopesAt, ht.ancestors_root, ScopeStack.new]

/-- Around each event of a walk the stacks are those that belong to the event. -/
theorem reaches_around {t : SyntaxTree} (ht : t.Linked) {a : Analyzer} {r : HiddenFieldRule}
    (ha : a.registry.rules = [r]) (hon : HiddenFieldRule.id ∉ a.config.disabledRules)
    {before after : List WalkEvent} {e : WalkEvent} (hsplit : t.events = before ++ e :: after) :
    a.Reaches t before (scopesBefore t e) ∧ a.Reaches t (before ++ [e]) (scopesAfter t e) := by
  obtain ⟨_, hbefore⟩ :=
    finds_before ht (lt_size_of_kind? ht.kind_root) (scopes_begin ht r) hsplit
  have hscopes : ({ r with scopes := scopesBefore t e } : HiddenFieldRule).scopes =
      scopesBefore t e := rfl
  obtain ⟨_, hstep⟩ := finds_step hscopes
  exact ⟨reaches_of_finds ha hon hbefore,
    reaches_of_finds ha hon (hbefore.runAll_append (hstep.runAll_cons (.quiet _)))⟩

/-- Between the events that enter and leave a type the stack that entering led to stays below. -/
theorem reaches_inside {t : SyntaxTree} (ht : t.Linked) {a : Analyzer} {r : HiddenFieldRule}
    (ha : a.registry.rules = [r]) (hon : HiddenFieldRule.id ∉ a.config.disabledRules)
    {outer part rest after : List WalkEvent} {node : Nat}
    (hsplit : t.events = outer ++ .enter node :: (part ++ rest) ++ .leave node :: after)
    (hrest : ∀ e ∈ rest, node ∈ t.ancestors e.node) :
    ∃ s, a.Reaches t (outer ++ .enter node :: part) s ∧ s.base = (scopesBelow t node).base ∧
      (scopesBelow t node).above <:+ s.above := by
  cases rest with
  | nil =>
    rw [List.append_nil] at hsplit
    exact ⟨_, (reaches_around ht ha hon hsplit).1, rfl, List.suffix_refl _⟩
  | cons e rest =>
    -- the next event is of a node below the type, and so is the stack that it is met with
    have hnext : t.events =
        (outer ++ .enter node :: part) ++ e :: (rest ++ .leave node :: after) := by
      simpa using hsplit
    refine ⟨_, (reaches_around ht ha hon hnext).1, ?_, ?_⟩
    · cases e <;> rfl
    · exact scopesBefore_suffix (hrest e (by simp))

/-- While a walk goes on, the scope stack is the chain of types around the place that it has
reached. At each declaration there is a frame for each class, enum and enum constant above, and no
other. Whenever a type is left, the stack is the one that entering it led to, with the frame of the
type on top, and that frame stayed in its place in between. A walk never fails and leaves an empty
stack behind. -/
theorem scopes_of_walk {t : SyntaxTree} (ht : t.Grown) {a : Analyzer} {r : HiddenFieldRule}
    (ha : a.registry.rules = [r]) (hon : "hidden-field" ∉ a.config.disabledRules) :
    (∀ before node after, t.events = before ++ .declaration node :: after →
        ∃ s, a.Reaches t before s ∧ t.IsChain node s) ∧
      (∀ before node after, t.events = before ++ .leave node :: after →
        ∃ outer inner s s' f, before = outer ++ .enter node :: inner ∧ a.Reaches t outer s ∧
          a.Reaches t (outer ++ [.enter node]) s' ∧ a.Reaches t before s' ∧
          a.Reaches t (before ++ [.leave node]) s ∧ s'.pop? = some (f, s) ∧ t.IsFrame node f ∧
          ∀ part, part <+: inner → ∃ within, a.Reaches t (outer ++ .enter node :: part) within ∧
            within.base = s'.base ∧ s'.above <:+ within.above) ∧
      (a.analyze t).analyzer = ⟨a.config, ⟨[{ r with scopes := .new }]⟩⟩ ∧
      ∃ found, (a.analyze t).result = .ok found := by
  have hlinked := ht.linked
  have hroot : root < t.size := lt_size_of_kind? hlinked.kind_root
  -- the whole walk leaves the stack as it found it
  obtain ⟨_, hwhole⟩ : ∃ found, (runAll (dispatch a.config t) (begin a.config a.registry.rules)
      t.events).Finds found [r.begin] := by
    rw [begin_eq ha hon]
    exact ⟨_, finds_dispatch hon (finds_eventsFrom hlinked hroot (scopes_begin hlinked r))⟩
  refine ⟨fun before node after hsplit => ?_, fun before node after hsplit => ?_,
    analyzer_eq_of_finds hwhole, _, result_analyze hwhole⟩
  · exact ⟨_, (reaches_around hlinked ha hon hsplit).1, isChain_scopesAt t node⟩
  · have hmem : .leave node ∈ t.events := by simp [hsplit]
    obtain ⟨f, hframe⟩ := exists_frame_of_leave hroot hmem
    -- the entering event that the leaving one answers to
    obtain ⟨outer, inner, rfl, hinner⟩ := hlinked.exists_enter_of_leave hroot hsplit
    have hsplit' : t.events = outer ++ .enter node :: (inner ++ .leave node :: after) := by
      simpa using hsplit
    obtain ⟨houter, henter⟩ := reaches_around hlinked ha hon hsplit'
    obtain ⟨hbefore, hleave⟩ := reaches_around hlinked ha hon hsplit
    have hpop : (scopesBelow t node).pop? = some (f, scopesAt t node) := by
      rw [scopesBelow_of_frame hframe]
      rfl
    refine ⟨outer, inner, _, _, f, rfl, houter, henter, hbefore, hleave, hpop,
      isFrame_of_frameAt? hframe, ?_⟩
    rintro part ⟨rest, rfl⟩
    exact reaches_inside hlinked ha hon hsplit fun e he => hinner e (by simp [he])

/-- A class with a field, in it an interface, and in this a static class with a static field and a
method with a parameter. -/
def nestedTypes : SyntaxTree :=
  let at_ (column : Nat) : Span := .at ⟨1, column⟩
  let int_ : TypeRef := .primitive "int"
  (((((((((((empty.add 0 (.classDef "Outer" []) (at_ 1)).add 1 .typeBody (at_ 2)).add
    2 (.variableDef "count" [] int_) (at_ 3)).add 2 (.interfaceDef "Face" []) (at_ 4)).add
    4 .typeBody (at_ 5)).add 5 (.classDef "Inner" [.static]) (at_ 6)).add 6 .typeBody (at_ 7)).add
    7 (.variableDef "limit" [.static] int_) (at_ 8)).add
    7 (.methodDef "reset" [] .void) (at_ 9)).add 9 .parameters (at_ 10)).add
    10 (.parameterDef "count" [] int_) (at_ 11))

/-- In a class with an interface and a static class: the interface has no frame, and at the
parameter there are the frames of the two classes. -/
theorem scopes_of_walk_nestedTypes :
    nestedTypes.Grown ∧ nestedTypes.typesAbove 11 = [6, 1] ∧
      nestedTypes.events = [.enter 1, .declaration 3, .enter 6, .declaration 8, .declaration 11,
        .leave 6, .leave 1] ∧
      ∃ s, (new {}).Reaches nestedTypes [.enter 1, .declaration 3, .enter 6, .declaration 8] s ∧
        nestedTypes.IsChain 11 s := by
  have hgrown : nestedTypes.Grown := by
    unfold nestedTypes
    repeat refine Grown.add _ _ ?_ (by decide +kernel)
    exact .empty
  have hevents : nestedTypes.events = [.enter 1, .declaration 3, .enter 6, .declaration 8,
      .declaration 11, .leave 6, .leave 1] := by
    decide +kernel
  have hwalk := scopes_of_walk hgrown (registry_new {}) (by decide)
  exact ⟨hgrown, by decide +kernel, hevents, hwalk.1 _ 11 [.leave 6, .leave 1] hevents⟩

end Analyzer

end FieldShadow
