/-!
# Counting the states of a machine

A pattern is searched for by a machine whose states read bytes. The machine must not take more than
ten mebibytes. While it is laid out, its states are counted, together with what some of them hold
besides: every way out of a fork, and every byte range of a state that has several. The count of
states so far is also the number of the next state.
-/

namespace FieldShadow.Pattern

/-- A machine that is being laid out: how many states it has, and how many bytes they hold besides
their own size. -/
structure Tally where
  states : Nat
  held : Nat
  deriving DecidableEq, Repr

namespace Tally

/-- The machine without states. -/
def zero : Tally := ⟨0, 0⟩

/-- The bytes that a machine takes. -/
def room (t : Tally) : Nat :=
  32 * t.states + t.held

/-- The most bytes that a machine may take. -/
def roomLimit : Nat := 10485760

/-- Adds states that hold some bytes; there is no machine beyond the limit. -/
def add (t : Tally) (states held : Nat) : Option Tally :=
  let t' : Tally := ⟨t.states + states, t.held + held⟩
  if t'.room ≤ roomLimit then some t' else none

/-- Adds a state. -/
def addState (t : Tally) : Option Tally :=
  t.add 1 0

/-- Adds a fork with some ways out. -/
def addFork (t : Tally) (ways : Nat) : Option Tally :=
  t.add 1 (4 * ways)

/-- Adds ways out of forks that are there already. -/
def addWays (t : Tally) (ways : Nat) : Option Tally :=
  t.add 0 (4 * ways)

/-- Adds a state that reads a byte in one of some ranges. -/
def addSwitch (t : Tally) (ranges : Nat) : Option Tally :=
  t.add 1 (8 * ranges)

/-- Lays out the same part `n` times. -/
def times (layOut : Tally → Option Tally) : Nat → Tally → Option Tally
  | 0, t => some t
  | n + 1, t =>
    match layOut t with
    | none => none
    | some t => times layOut n t

end Tally

/-- The direction in which a machine reads. A search finds the end of a match with a machine that
reads forward, and its start with one that reads backward. -/
inductive Direction where
  | forward
  | backward
  deriving DecidableEq, Repr

end FieldShadow.Pattern
