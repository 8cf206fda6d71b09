import FieldShadow.Pattern.Machine.Tally

/-!
# Trees of words

A choice between literals is laid out as one tree in which words share their beginnings. As an
earlier word is to be found rather than a later one, the ways out of a node are kept in groups:
where a word ends at a node, the ways that were there before stay in front of that end, and later
words begin a new group behind it.
-/

namespace FieldShadow.Pattern

/-- A tree of words. `closed` counts the ways out of each finished group, one for each end of a word
at the node, latest first; `ways` leads on from the open group, and `below` holds the nodes that the
finished groups lead to. -/
inductive WordTree where
  | node (closed : List Nat) (ways : List (UInt8 × WordTree)) (below : List WordTree)

namespace WordTree

/-- The tree without words. -/
def empty : WordTree := .node [] [] []

/-- Whether the node has no ways out. -/
def isLeaf : WordTree → Bool
  | .node _ ways below => ways.isEmpty && below.isEmpty

/-- Notes that a word ends at the node. A leaf notes it once. -/
def endWord : WordTree → WordTree
  | .node closed ways below =>
    if ways.isEmpty && below.isEmpty && !closed.isEmpty then .node closed ways below
    else .node (ways.length :: closed) [] (ways.map (·.2) ++ below)

/-- The tree with the way for a byte changed, or added. -/
def changeWay (f : WordTree → WordTree) (byte : UInt8) :
    List (UInt8 × WordTree) → List (UInt8 × WordTree)
  | [] => [(byte, f empty)]
  | (b, tree) :: ways =>
    if b = byte then (b, f tree) :: ways else (b, tree) :: changeWay f byte ways

/-- Adds a word. -/
def insert : List UInt8 → WordTree → WordTree
  | [], tree => tree.endWord
  | byte :: bytes, .node closed ways below =>
    .node closed (changeWay (insert bytes) byte ways) below

mutual

/-- Lays out the node and what is below it: a state for each group that has ways out, and a fork
between these and the ends of words. -/
def layOut : WordTree → Tally → Option Tally
  | .node closed ways below, t => do
    let t ← layOutWays ways t
    let t ← layOutAll below t
    let groups := (ways.length :: closed).filter (0 < ·)
    let t ← groups.foldlM (fun t n => t.add 1 (if n = 1 then 0 else 8 * n)) t
    t.addFork (groups.length + closed.length)

/-- Lays out the nodes that some ways lead to. A leaf takes no state of its own. -/
def layOutWays : List (UInt8 × WordTree) → Tally → Option Tally
  | [], t => some t
  | (_, tree) :: ways, t => do
    let t ← if tree.isLeaf then some t else layOut tree t
    layOutWays ways t

/-- Lays out some nodes. -/
def layOutAll : List WordTree → Tally → Option Tally
  | [], t => some t
  | tree :: trees, t => do
    let t ← if tree.isLeaf then some t else layOut tree t
    layOutAll trees t

end

end WordTree

/-- Lays out a choice between words. -/
def layOutWords (words : List (List UInt8)) (t : Tally) : Option Tally :=
  t.addState >>= (words.foldl (fun tree word => tree.insert word) WordTree.empty).layOut

end FieldShadow.Pattern
