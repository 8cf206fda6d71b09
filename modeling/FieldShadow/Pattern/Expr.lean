import FieldShadow.Pattern.CharClass

/-!
# Pattern expressions

The expressions that patterns are written for, and the search for one in a text. A search works on
sets of places, and a set of places is a number whose bits are the places: reading a class moves the
places where it holds one to the left, a condition keeps some of them, a choice joins sets.
-/

namespace FieldShadow.Pattern

/-- A condition on the characters around a place, at the edge of a word. -/
inductive WordEdge where
  | either
  | neither
  | start
  | stop
  | startHalf
  | stopHalf
  deriving DecidableEq, Repr

/-- A condition on a place of the text. -/
inductive Anchor where
  | textStart
  | textEnd
  | lineStart (carriageReturns : Bool)
  | lineEnd (carriageReturns : Bool)
  | word (edge : WordEdge) (ascii : Bool)
  deriving DecidableEq, Repr

/-- Whether a condition holds between two characters; at the ends of the text one is missing. -/
def Anchor.holds (a : Anchor) (before after : Option Char) : Bool :=
  match a with
  | .textStart => before.isNone
  | .textEnd => after.isNone
  | .lineStart false => before.isNone || before == some '\n'
  | .lineEnd false => after.isNone || after == some '\n'
  | .lineStart true =>
    before.isNone || before == some '\n' || (before == some '\r' && after != some '\n')
  | .lineEnd true =>
    after.isNone || after == some '\r' || (after == some '\n' && before != some '\r')
  | .word edge ascii =>
    let b := before.any (NamedClass.word ascii).contains
    let a := after.any (NamedClass.word ascii).contains
    match edge with
    | .either => b != a
    | .neither => b == a
    | .start => !b && a
    | .stop => b && !a
    | .startHalf => !b
    | .stopHalf => !a

/-- A pattern expression. A setting is the place where flags were set; it matches nothing but the
empty text. `bytewise` tells whether a class was read byte by byte, `captures` whether a group has a
number, and `greedy` whether a repetition prefers to be long; which texts match does not depend on
them. -/
inductive Expr where
  | empty
  | setting
  | one (k : CharClass) (bytewise : Bool)
  | anchor (a : Anchor)
  | group (captures : Bool) (inner : Expr)
  | sequence (parts : List Expr)
  | choice (parts : List Expr)
  | repeated (inner : Expr) (least : Nat) (most : Option Nat) (greedy : Bool)
  deriving Repr

namespace Expr

/-- The set of places from `i` on whose next character belongs to the class. -/
def placesOf (k : CharClass) (i : Nat) : List Char → Nat
  | [] => 0
  | c :: rest => (if k.contains c then 1 <<< i else 0) ||| placesOf k (i + 1) rest

/-- The set of places from `i` on where the condition holds, with `before` the character before
place `i`. -/
def placesWhere (a : Anchor) (before : Option Char) (i : Nat) : List Char → Nat
  | [] => if a.holds before none then 1 <<< i else 0
  | c :: rest =>
    (if a.holds before (some c) then 1 <<< i else 0) ||| placesWhere a (some c) (i + 1) rest

/-- Applies `f` to a set of places `n` times; a set that does not change any more is the result. -/
def iterate (f : Nat → Nat) : Nat → Nat → Nat
  | 0, places => places
  | n + 1, places =>
    let next := f places
    if next = places then places else iterate f n next

/-- Everything that `f` reaches in at most `n` steps. -/
def reach (f : Nat → Nat) (n : Nat) (places : Nat) : Nat :=
  iterate (fun s => s ||| f s) n places

mutual

/-- The places where a match can end that begins at one of the given places. -/
def ends (text : List Char) : Expr → Nat → Nat
  | .empty, places | .setting, places => places
  | .one k _, places => (places &&& placesOf k 0 text) <<< 1
  | .anchor a, places => places &&& placesWhere a none 0 text
  | .group _ inner, places => ends text inner places
  | .sequence parts, places => endsOfSequence text parts places
  | .choice parts, places => endsOfChoice text parts places
  | .repeated inner least most _, places =>
    let rounds := match most with
      | some most => most - least
      | none => text.length + 1
    reach (fun s => ends text inner s) rounds
      (iterate (fun s => ends text inner s) least places)

/-- The ends of matches of all parts one after the other. -/
def endsOfSequence (text : List Char) : List Expr → Nat → Nat
  | [], places => places
  | part :: parts, places => endsOfSequence text parts (ends text part places)

/-- The ends of matches of any of the parts. -/
def endsOfChoice (text : List Char) : List Expr → Nat → Nat
  | [], _ => 0
  | part :: parts, places => ends text part places ||| endsOfChoice text parts places

end

/-- Whether the expression matches some part of the text. -/
def occursIn (e : Expr) (text : List Char) : Bool :=
  e.ends text (1 <<< (text.length + 1) - 1) != 0

mutual

/-- How deeply the parts of an expression are nested. -/
def depth : Expr → Nat
  | .empty | .setting | .anchor _ => 0
  | .one k _ => k.depth
  | .group _ inner => 1 + depth inner
  | .sequence parts => 1 + maxDepth parts
  | .choice parts => 1 + maxDepth parts
  | .repeated inner _ _ _ => 1 + depth inner

/-- The greatest depth of some expressions. -/
def maxDepth : List Expr → Nat
  | [] => 0
  | part :: parts => max (depth part) (maxDepth parts)

end

/-- The expression of some parts in sequence; a single part stands for itself. -/
def ofSequence : List Expr → Expr
  | [] => .empty
  | [part] => part
  | parts => .sequence parts

end Expr

end FieldShadow.Pattern
