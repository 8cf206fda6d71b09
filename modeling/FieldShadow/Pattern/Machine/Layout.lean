import FieldShadow.Pattern.Core
import FieldShadow.Pattern.Machine.ClassStates
import FieldShadow.Pattern.Machine.WordTree

/-!
# Laying out a machine

The states of the machine for a core, counted in the order in which they are made. Repetitions are
written out: a part that has to be matched `n` times is there `n` times, and each further time that
it may be matched costs another copy and a fork. Only the forward machine marks where captures begin
and end.
-/

namespace FieldShadow.Pattern.Core

mutual

/-- The least number of characters of a match, or nothing if there is a part that never matches. -/
def minLength? : Core → Option Nat
  | .empty | .anchor _ => some 0
  | .literal text => some text.length
  | .one set _ => if set.codes.bounds.isEmpty then none else some 1
  | .capture inner => minLength? inner
  | .repeated inner least _ _ => (minLength? inner).map (· * least)
  | .sequence parts => sumMinLengths? parts
  | .choice [] => none
  | .choice (c :: cs) => leastMinLength? (minLength? c) cs

/-- The sum of the least numbers of characters. -/
def sumMinLengths? : List Core → Option Nat
  | [] => some 0
  | c :: cs =>
    match minLength? c, sumMinLengths? cs with
    | some m, some n => some (m + n)
    | _, _ => none

/-- The least of a number and the least numbers of characters. -/
def leastMinLength? (least : Option Nat) : List Core → Option Nat
  | [] => least
  | c :: cs =>
    match minLength? c, leastMinLength? least cs with
    | some m, some n => some (min m n)
    | _, _ => none

end

/-- Whether every match takes at least one character. -/
def takesSome (c : Core) : Bool :=
  match c.minLength? with
  | some n => 0 < n
  | none => false

/-- The bytes of a literal. -/
def word? : Core → Option (List UInt8)
  | .literal text => some (textBytes text)
  | _ => none

mutual

/-- Lays out a core. -/
def layOut (direction : Direction) : Core → Tally → Option Tally
  | .empty, t | .anchor _, t => t.addState
  | .literal text, t => t.add (textBytes text).length 0
  | .one set _, t => set.layOut direction t
  | .capture inner, t =>
    match direction with
    | .forward => t.addState >>= layOut direction inner >>= Tally.addState
    | .backward => layOut direction inner t
  | .sequence parts, t => layOutSequence direction parts t
  | .choice parts, t =>
    match parts.mapM word? with
    | some words =>
      layOutWords (if direction = .forward then words else words.map List.reverse) t
    | none => layOutChoice direction parts t
  | .repeated inner 0 none _, t =>
    if inner.takesSome then t.addFork 2 >>= layOut direction inner
    else layOut direction inner t >>= (·.addFork 2) >>= (·.addFork 2) >>= Tally.addState
  | .repeated inner least none _, t =>
    t.times (layOut direction inner) least >>= (·.addFork 2)
  | .repeated inner 0 (some 1) _, t =>
    t.addFork 2 >>= layOut direction inner >>= Tally.addState
  | .repeated inner least (some most) _, t =>
    let once := layOut direction inner
    let needed := if least = 0 then t.addState else Tally.times once least t
    if most = least then needed
    else needed >>= Tally.addState >>= Tally.times (fun t => t.addFork 2 >>= once) (most - least)

/-- Lays out some cores one after the other, in the order in which they are read. -/
def layOutSequence (direction : Direction) : List Core → Tally → Option Tally
  | [], t => some t
  | c :: cs, t =>
    match direction with
    | .forward => layOut direction c t >>= layOutSequence direction cs
    | .backward => layOutSequence direction cs t >>= layOut direction c

/-- Lays out the alternatives of a choice. The fork between them and the state where they meet again
are made behind the second one. -/
def layOutChoice (direction : Direction) : List Core → Tally → Option Tally
  | first :: second :: others, t =>
    layOut direction first t >>= layOut direction second >>= (·.addFork 2) >>= Tally.addState >>=
      layOutOthers direction others
  | cs, t => layOutOthers direction cs t

/-- Lays out further alternatives. -/
def layOutOthers (direction : Direction) : List Core → Tally → Option Tally
  | [], t => some t
  | c :: cs, t => layOut direction c t >>= (·.addWays 1) >>= layOutOthers direction cs

end

mutual

/-- Whether every match begins at the given end of the text, in the given direction. -/
def startsAt (a : Anchor) (direction : Direction) : Core → Bool
  | .anchor b => a == b
  | .empty | .literal _ | .one .. => false
  | .capture inner => startsAt a direction inner
  | .repeated inner least _ _ => 0 < least && startsAt a direction inner
  | .sequence parts => sequenceStartsAt a direction parts
  | .choice parts => !parts.isEmpty && allStartAt a direction parts

/-- Whether one of the parts that are read before the first character begins at the given end. -/
def sequenceStartsAt (a : Anchor) (direction : Direction) : List Core → Bool
  | [] => false
  | c :: cs =>
    match direction with
    | .forward => startsAt a direction c || (c.takesNothing && sequenceStartsAt a direction cs)
    | .backward =>
      (allTakeNothing cs && startsAt a direction c) || sequenceStartsAt a direction cs

/-- Whether all matches of some cores begin at the given end. -/
def allStartAt (a : Anchor) (direction : Direction) : List Core → Bool
  | [] => true
  | c :: cs => startsAt a direction c && allStartAt a direction cs

end

/-- Whether the machine need only be started at the end of the text that it reads from. -/
def isAnchored (c : Core) (direction : Direction) : Bool :=
  match direction with
  | .forward => c.startsAt .textStart direction
  | .backward => c.startsAt .textEnd direction

/-- The machine for a core. In front of it there is a loop over the bytes that a search skips, and
behind it the state that reports a match; the forward machine treats the whole core as a capture. -/
def machine (c : Core) (direction : Direction) : Option Tally :=
  let start := if c.isAnchored direction then Tally.zero.addState
    else Tally.zero.addFork 2 >>= Tally.addState >>= (·.addSwitch 1)
  start >>= layOut direction (.capture c) >>= Tally.addState

/-- Whether the core is a choice between so many words that it is not searched for by a machine over
bytes. -/
def isWordList : Core → Bool
  | .choice parts => 3000 ≤ parts.length && parts.all fun c => c.word?.isSome
  | _ => false

/-- Whether there is a machine for the core in both directions. -/
def hasMachines (c : Core) : Bool :=
  c.isWordList || ((c.machine .forward).isSome && (c.machine .backward).isSome)

end FieldShadow.Pattern.Core
