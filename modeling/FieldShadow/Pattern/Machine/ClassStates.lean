import FieldShadow.Pattern.Machine.Tally
import FieldShadow.Pattern.Spelling
import Std.Data.HashMap

/-!
# The states of a class

A class of ASCII characters is a single state with its ranges. Any other class is laid out from its
spellings. Forward, the spellings form a tree whose equal subtrees are one; backward, each spelling
is a chain of states, and the chains share what they have in common at their beginning. In both
directions a state is shared only if it is still remembered: what was laid out is kept in a table
with a fixed number of slots, where the later of two entries for a slot replaces the earlier one. As
the slots depend on the numbers of states, the same class may take a few more states in one place of
a machine than in another.
-/

namespace FieldShadow.Pattern

/-- Goes on with a hash by another number. -/
def hashWith (hash n : UInt64) : UInt64 :=
  (hash ^^^ n) * 1099511628211

/-- Where every hash starts. -/
def hashStart : UInt64 := 14695981039346656037

/-- A way from a state to another one: the bytes that it is for, and the number of the state it
leads to. -/
structure Edge where
  range : ByteRange
  target : Nat
  deriving DecidableEq, Repr

namespace Edge

/-- Goes on with a hash by the range and then the state of an edge. -/
def hashOnto (hash : UInt64) (e : Edge) : UInt64 :=
  hashWith (hashWith (hashWith hash e.range.low.toUInt64) e.range.high.toUInt64)
    e.target.toUInt64

/-- Goes on with a hash by the state and then the range of an edge. -/
def hashBackOnto (hash : UInt64) (e : Edge) : UInt64 :=
  hashWith (hashWith (hashWith hash e.target.toUInt64) e.range.low.toUInt64)
    e.range.high.toUInt64

end Edge

/-- What is remembered of a layout: for each slot that is taken, the last thing laid out there and
the number of its state. -/
abbrev Memory (α : Type) := Std.HashMap UInt64 (α × Nat)

/-- The number of the state that a thing has in its slot, if it is still there. -/
def Memory.find? {α : Type} [DecidableEq α] (m : Memory α) (slot : UInt64) (a : α) : Option Nat :=
  match m[slot]? with
  | some (b, state) => if a = b then some state else none
  | none => none

/-! ## Forward -/

/-- A machine that is being laid out, with the states remembered by their edges. -/
structure ForwardDraft where
  tally : Tally
  memory : Memory (List Edge)

/-- The state with the given edges, a new one if it is not remembered. -/
def ForwardDraft.state? (d : ForwardDraft) (edges : List Edge) : Option (Nat × ForwardDraft) :=
  let slot := edges.foldl Edge.hashOnto hashStart % 10000
  match d.memory.find? slot edges with
  | some state => some (state, d)
  | none =>
    match d.tally.addSwitch edges.length with
    | none => none
    | some tally => some (d.tally.states, ⟨tally, d.memory.insert slot (edges, d.tally.states)⟩)

/-- A node of the tree on the path to its last leaf: its finished edges, latest first, and the range
of the edge along the path. -/
structure OpenNode where
  finished : List Edge
  range : ByteRange

/-- Finishes the nodes of a path, the deepest first, and gives the state of the uppermost one. The
path ends in `leaf`. -/
def ForwardDraft.finish? (d : ForwardDraft) (leaf : Nat) :
    List OpenNode → Option (Nat × ForwardDraft)
  | [] => some (leaf, d)
  | node :: path =>
    match d.finish? leaf path with
    | none => none
    | some (target, d) => d.state? (⟨node.range, target⟩ :: node.finished).reverse

/-- Adds a spelling to the tree. It follows the path as far as they agree; what the path has below
that is finished. -/
def ForwardDraft.insert? (d : ForwardDraft) (leaf : Nat) :
    List OpenNode → List ByteRange → Option (List OpenNode × ForwardDraft)
  | node :: path, range :: ranges =>
    if node.range = range then
      match d.insert? leaf path ranges with
      | none => none
      | some (path, d) => some (node :: path, d)
    else
      match d.finish? leaf path with
      | none => none
      | some (target, d) =>
        let node : OpenNode := ⟨⟨node.range, target⟩ :: node.finished, range⟩
        some (node :: ranges.map (OpenNode.mk []), d)
  | _, ranges => some (ranges.map (OpenNode.mk []), d)

/-- Adds some spellings to the tree and then finishes it. -/
def ForwardDraft.insertAll? (d : ForwardDraft) (leaf : Nat) (path : List OpenNode) :
    List (List ByteRange) → Option Tally
  | [] => (d.finish? leaf path).map fun (_, d) => d.tally
  | ranges :: sequences =>
    match d.insert? leaf path ranges with
    | none => none
    | some (path, d) => d.insertAll? leaf path sequences

/-! ## Backward -/

/-- A machine that is being laid out, with the states remembered by their edge. -/
structure BackwardDraft where
  tally : Tally
  memory : Memory Edge

/-- Lays out a spelling from its first byte on, which leads to the state `target`. -/
def BackwardDraft.chain? (d : BackwardDraft) (target : Nat) :
    List ByteRange → Option BackwardDraft
  | [] => some d
  | range :: ranges =>
    let edge : Edge := ⟨range, target⟩
    let slot := edge.hashBackOnto hashStart % 1000
    match d.memory.find? slot edge with
    | some state => d.chain? state ranges
    | none =>
      let state := d.tally.states
      match d.tally.addState with
      | none => none
      | some tally =>
        BackwardDraft.chain? ⟨tally, d.memory.insert slot (edge, state)⟩ state ranges

/-- Lays out some spellings, each behind a way out of the fork that they begin with. -/
def BackwardDraft.chains? (d : BackwardDraft) (target : Nat) :
    List (List ByteRange) → Option Tally
  | [] => some d.tally
  | ranges :: sequences =>
    match d.chain? target ranges with
    | none => none
    | some d =>
      match d.tally.addWays 1 with
      | none => none
      | some tally => BackwardDraft.chains? ⟨tally, d.memory⟩ target sequences

/-- Lays out a class. -/
def CharSet.layOut (s : CharSet) (direction : Direction) (t : Tally) : Option Tally :=
  if s.isAscii then t.addState >>= (·.addSwitch s.codes.runs.length)
  else match direction with
    | .forward =>
      t.addState >>= fun t' => ForwardDraft.insertAll? ⟨t', ∅⟩ t.states [] s.sequences
    | .backward =>
      t.add 2 0 >>= fun t' => BackwardDraft.chains? ⟨t', ∅⟩ (t.states + 1) s.sequences

end FieldShadow.Pattern
