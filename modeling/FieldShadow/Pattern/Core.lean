import FieldShadow.Pattern.Expr
import FieldShadow.Pattern.Spelling

/-!
# The core of an expression

What an expression comes down to before it is laid out as a machine. Groups that capture nothing and
settings are gone, neighbouring characters are one literal, a class of a single character is a
literal too, a choice between single characters is a class, and what all alternatives of a choice
begin with stands in front of it. Each of these is done by the function that builds the
corresponding core.
-/

namespace FieldShadow.Pattern

open Unicode (CodeSet)

/-- An expression in its simplest form. `bytewise` marks the classes that were read byte by byte. -/
inductive Core where
  | empty
  | literal (text : List Char)
  | one (set : CharSet) (bytewise : Bool)
  | anchor (a : Anchor)
  | capture (inner : Core)
  | repeated (inner : Core) (least : Nat) (most : Option Nat) (greedy : Bool)
  | sequence (parts : List Core)
  | choice (parts : List Core)

namespace Core

mutual

/-- Whether a core is another one over again. Captures are all different, as each has its own
number. -/
def same : Core → Core → Bool
  | .empty, .empty => true
  | .literal s, .literal t => s == t
  | .one s b, .one t b' => s.codes == t.codes && b == b'
  | .anchor a, .anchor b => a == b
  | .repeated c l m g, .repeated c' l' m' g' => same c c' && l == l' && m == m' && g == g'
  | .sequence cs, .sequence cs' => sameList cs cs'
  | .choice cs, .choice cs' => sameList cs cs'
  | _, _ => false

/-- Whether some cores are some others over again. -/
def sameList : List Core → List Core → Bool
  | [], [] => true
  | c :: cs, c' :: cs' => same c c' && sameList cs cs'
  | _, _ => false

end

mutual

/-- Whether a core matches the empty text and nothing else. -/
def takesNothing : Core → Bool
  | .empty | .anchor _ => true
  | .literal _ | .one .. => false
  | .capture inner => takesNothing inner
  | .repeated inner _ _ _ => takesNothing inner
  | .sequence parts => allTakeNothing parts
  | .choice parts => allTakeNothing parts

/-- Whether some cores all match nothing but the empty text. -/
def allTakeNothing : List Core → Bool
  | [] => true
  | c :: cs => takesNothing c && allTakeNothing cs

end

/-- The core that matches nothing at all. -/
def dead : Core :=
  .one (.ofCodes .empty) true

/-- The core of a class. -/
def ofCodes (codes : CodeSet) (bytewise : Bool) : Core :=
  match codes.runs with
  | [] => dead
  | [(first, last)] =>
    if first = last then .literal [Char.ofNat first] else .one (.ofCodes codes) bytewise
  | _ => .one (.ofCodes codes) bytewise

/-- The core of a repetition. What takes nothing need not be tried more than once. -/
def ofRepeated (inner : Core) (least : Nat) (most : Option Nat) (greedy : Bool) : Core :=
  let (least, most) :=
    if inner.takesNothing then (min least 1, some (min (most.getD 1) 1)) else (least, most)
  match least, most with
  | 0, some 0 => .empty
  | 1, some 1 => inner
  | least, most => .repeated inner least most greedy

/-- Joins neighbouring literals. -/
def joinLiterals : List Core → List Core
  | [] => []
  | .literal s :: rest =>
    match joinLiterals rest with
    | .literal t :: rest => .literal (s ++ t) :: rest
    | rest => .literal s :: rest
  | c :: rest => c :: joinLiterals rest

/-- The core of some cores one after the other. -/
def ofSequence (parts : List Core) : Core :=
  let flat := parts.flatMap fun
    | .empty => []
    | .sequence inner => inner
    | c => [c]
  match joinLiterals flat with
  | [] => .empty
  | [c] => c
  | parts => .sequence parts

/-- The code point of a literal of one character. -/
def letter? : Core → Option Nat
  | .literal [c] => some c.toNat
  | _ => none

/-- The code points of a class. -/
def class? : Core → Option CodeSet
  | .one set _ => some set.codes
  | _ => none

/-- The parts of a sequence. -/
def parts? : Core → Option (List Core)
  | .sequence parts => some parts
  | _ => none

/-- What two lists of cores begin with in common. -/
def sharedStart : List Core → List Core → List Core
  | c :: cs, c' :: cs' => if same c c' then c :: sharedStart cs cs' else []
  | _, _ => []

/-- The core of a choice without regard to what its alternatives begin with. -/
def ofAlternatives (alternatives : List Core) : Core :=
  match alternatives with
  | [] => dead
  | [c] => c
  | cs =>
    match cs.mapM letter?, cs.mapM class? with
    | some letters, _ => ofCodes (.ofCodes letters) false
    | none, some sets => ofCodes (sets.foldl CodeSet.union .empty) false
    | none, none => .choice cs

/-- The alternatives of some cores, those of a choice taken one by one. -/
def flatAlternatives (alternatives : List Core) : List Core :=
  alternatives.flatMap fun
    | .choice inner => inner
    | c => [c]

/-- The core of a choice. Alternatives that all begin with the same parts are tried behind those
parts; as their longest common start is taken, the rests have none. -/
def ofChoice (alternatives : List Core) : Core :=
  let flat := flatAlternatives alternatives
  match flat.mapM parts? with
  | some (first :: second :: others) =>
    let start := (second :: others).foldl sharedStart first
    if start.isEmpty then .choice flat
    else
      let rests := (first :: second :: others).map fun parts =>
        ofSequence (parts.drop start.length)
      ofSequence (start ++ [ofAlternatives (flatAlternatives rests)])
  | _ => ofAlternatives flat

end Core

mutual

/-- The core of an expression. -/
def Expr.core : Expr → Core
  | .empty | .setting => .empty
  | .one k bytewise => .ofCodes k.codes bytewise
  | .anchor a => .anchor a
  | .group true inner => .capture inner.core
  | .group false inner => inner.core
  | .sequence parts => .ofSequence (Expr.cores parts)
  | .choice parts => .ofChoice (Expr.cores parts)
  | .repeated inner least most greedy => .ofRepeated inner.core least most greedy

/-- The cores of some expressions. -/
def Expr.cores : List Expr → List Core
  | [] => []
  | part :: parts => part.core :: Expr.cores parts

end

end FieldShadow.Pattern
