import FieldShadow.SyntaxTree.Basic

/-!
# Outlines

An outline is the nested form of a part of a syntax tree: a node with its children in it. Grafting
an outline adds its nodes to a tree one by one, each node before its children.
-/

namespace FieldShadow

/-- A node with everything below it. -/
inductive Outline where
  | node (kind : NodeKind) (span : Span) (children : List Outline)
  deriving Repr

/-- An outline without children. -/
def Outline.leaf (kind : NodeKind) (span : Span) : Outline :=
  .node kind span []

namespace SyntaxTree

mutual

/-- Adds an outline below a node. -/
def graft (t : SyntaxTree) (parent : Nat) : Outline → SyntaxTree
  | .node kind span children => graftAll (t.add parent kind span) t.size children

/-- Adds outlines below a node, in their order. -/
def graftAll (t : SyntaxTree) (parent : Nat) : List Outline → SyntaxTree
  | [] => t
  | outline :: outlines => graftAll (graft t parent outline) parent outlines

end

/-- The tree of a compilation unit with these type declarations. -/
def ofOutlines (outlines : List Outline) : SyntaxTree :=
  empty.graftAll root outlines

end SyntaxTree

end FieldShadow
