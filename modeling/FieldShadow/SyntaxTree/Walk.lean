import FieldShadow.SyntaxTree.Basic

/-!
# Walks

A walk visits a tree depth first, children in their order. Rules are told of the types it enters
and leaves and of the declarations it passes.
-/

namespace FieldShadow

/-- What a rule is told of: a type, enum or enum constant is entered or left, or a variable or
parameter is passed. -/
inductive WalkEvent where
  | enter (node : Nat)
  | leave (node : Nat)
  | declaration (node : Nat)
  deriving DecidableEq, Repr

/-- The events of a node, when `inner` are those of everything below it. -/
def NodeKind.eventsAround (kind : NodeKind) (node : Nat) (inner : List WalkEvent) :
    List WalkEvent :=
  match kind with
  | .classDef .. | .enumDef .. | .enumConstant _ => .enter node :: inner ++ [.leave node]
  | .variableDef .. | .parameterDef .. => .declaration node :: inner
  | _ => inner

namespace SyntaxTree

/-- The nodes from `node` down, each before its children. -/
def preorder (t : SyntaxTree) (node : Nat) : List Nat :=
  node :: (t.children node).attach.flatMap fun ⟨c, _⟩ => t.preorder c
termination_by t.size - node
decreasing_by
  have := lt_of_mem_children ‹_›
  omega

/-- The events of a walk from `node` down. -/
def eventsFrom (t : SyntaxTree) (node : Nat) : List WalkEvent :=
  let inner := (t.children node).attach.flatMap fun ⟨c, _⟩ => t.eventsFrom c
  match t.kind? node with
  | none => inner
  | some kind => kind.eventsAround node inner
termination_by t.size - node
decreasing_by
  have := lt_of_mem_children ‹_›
  omega

/-- The events of a walk over the whole tree. -/
def events (t : SyntaxTree) : List WalkEvent :=
  t.eventsFrom root

end SyntaxTree

end FieldShadow
