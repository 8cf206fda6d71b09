/-!
# Sets of code points

A property of characters is tabulated as the increasing list of the code points where membership
changes. A character belongs to the set when an odd number of them are at most its code point,
and a binary search counts them. Two sets are combined by walking along both lists at once.
-/

namespace FieldShadow.Unicode

/-- A set of code points, given by the places where membership changes, in increasing order. -/
structure CodeSet where
  bounds : Array Nat
  deriving DecidableEq, Repr

/-- How many of the bounds are at most `n`, when those below `lo` are and those from `hi` on are
not. -/
def CodeSet.rankBetween (s : CodeSet) (n lo hi : Nat) : Nat :=
  if lo < hi then
    let mid := (lo + hi) / 2
    if s.bounds.getD mid 0 ≤ n then s.rankBetween n (mid + 1) hi else s.rankBetween n lo mid
  else lo
termination_by hi - lo

/-- Whether a code point belongs to the set. -/
def CodeSet.containsCode (s : CodeSet) (n : Nat) : Bool :=
  s.rankBetween n 0 s.bounds.size % 2 == 1

/-- Whether a character belongs to the set. -/
def CodeSet.contains (s : CodeSet) (c : Char) : Bool :=
  s.containsCode c.toNat

/-- The bounds of what `op` makes of two sets. `inA` and `inB` tell whether the place before the
bounds belongs to the first and to the second set. -/
def combineBounds (op : Bool → Bool → Bool) (inA inB : Bool) : List Nat → List Nat → List Nat
  | [], [] => []
  | a :: as, [] =>
    let rest := combineBounds op (!inA) inB as []
    if op inA inB = op (!inA) inB then rest else a :: rest
  | [], b :: bs =>
    let rest := combineBounds op inA (!inB) [] bs
    if op inA inB = op inA (!inB) then rest else b :: rest
  | a :: as, b :: bs =>
    if a < b then
      let rest := combineBounds op (!inA) inB as (b :: bs)
      if op inA inB = op (!inA) inB then rest else a :: rest
    else if b < a then
      let rest := combineBounds op inA (!inB) (a :: as) bs
      if op inA inB = op inA (!inB) then rest else b :: rest
    else
      let rest := combineBounds op (!inA) (!inB) as bs
      if op inA inB = op (!inA) (!inB) then rest else a :: rest
termination_by as bs => as.length + bs.length

namespace CodeSet

/-- The code points that `op` accepts by their membership in two sets. -/
def combine (op : Bool → Bool → Bool) (s t : CodeSet) : CodeSet :=
  ⟨(combineBounds op false false s.bounds.toList t.bounds.toList).toArray⟩

/-- The set without elements. -/
def empty : CodeSet := ⟨#[]⟩

/-- The code points of characters: all but the surrogates. -/
def scalars : CodeSet := ⟨#[0, 0xD800, 0xE000, 0x110000]⟩

/-- The characters from `low` to `high`. -/
def interval (low high : Char) : CodeSet :=
  combine (· && ·) ⟨#[low.toNat, high.toNat + 1]⟩ scalars

/-- The code points in one of two sets. -/
def union (s t : CodeSet) : CodeSet :=
  combine (· || ·) s t

/-- The code points in both of two sets. -/
def inter (s t : CodeSet) : CodeSet :=
  combine (· && ·) s t

/-- The code points in the first of two sets only. -/
def diff (s t : CodeSet) : CodeSet :=
  combine (· && !·) s t

/-- The code points in exactly one of two sets. -/
def symmDiff (s t : CodeSet) : CodeSet :=
  combine (· != ·) s t

/-- The characters that are not in the set. -/
def complement (s : CodeSet) : CodeSet :=
  diff scalars s

/-- The bounds of a set whose elements are listed in increasing order. -/
def boundsOf : List Nat → List Nat
  | [] => []
  | n :: rest =>
    match boundsOf rest with
    | [] => [n, n + 1]
    | m :: bounds =>
      if m = n then m :: bounds
      else if m = n + 1 then n :: bounds
      else n :: (n + 1) :: m :: bounds

/-- The set of some code points. -/
def ofCodes (codes : List Nat) : CodeSet :=
  ⟨(boundsOf (codes.mergeSort (· ≤ ·))).toArray⟩

/-- The runs between pairs of bounds, each by its first and its last element. -/
def runsOf : List Nat → List (Nat × Nat)
  | first :: past :: rest => (first, past - 1) :: runsOf rest
  | _ => []

/-- The runs of consecutive elements of the set, in increasing order. -/
def runs (s : CodeSet) : List (Nat × Nat) :=
  runsOf s.bounds.toList

end CodeSet

end FieldShadow.Unicode
