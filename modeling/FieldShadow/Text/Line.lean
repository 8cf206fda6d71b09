import FieldShadow.Unicode.Property

/-!
# Lines, fields and surrounding space

The three ways in which a text is cut: into lines, into fields between separators, and free of
the white space around it.
-/

namespace FieldShadow.Text

/-- Puts a character in front of the first of some lines. -/
def consToFirst (c : Char) : List (List Char) → List (List Char)
  | [] => [[c]]
  | line :: lines => (c :: line) :: lines

/-- The lines of a text without their ends. A line ends at a line feed, which takes one carriage
return right before it along; the last line needs no end, and a text that ends in a line feed has
no empty line after it. -/
def splitLines : List Char → List (List Char)
  | [] => []
  | '\n' :: rest => [] :: splitLines rest
  | '\r' :: '\n' :: rest => [] :: splitLines rest
  | c :: rest => consToFirst c (splitLines rest)

/-- The lines of a text. -/
def lines (s : String) : List String :=
  (splitLines s.toList).map String.ofList

/-- The fields of a text between separators, one more than there are separators. -/
def splitFields (separator : Char) : List Char → List (List Char)
  | [] => [[]]
  | c :: rest =>
    if c = separator then [] :: splitFields separator rest
    else consToFirst c (splitFields separator rest)

/-- The characters without the white space around them. -/
def trimSpace (cs : List Char) : List Char :=
  ((cs.dropWhile Unicode.isWhiteSpace).reverse.dropWhile Unicode.isWhiteSpace).reverse

/-- A text without the white space around it. -/
def trim (s : String) : String :=
  String.ofList (trimSpace s.toList)

/-- What stands before and after the first separator of a text, if it has one. -/
def splitOnce? (separator : Char) (s : String) : Option (String × String) :=
  match s.toList.dropWhile (· != separator) with
  | [] => none
  | _ :: after => some (String.ofList (s.toList.takeWhile (· != separator)), String.ofList after)

/-- A text that is split has the separator between the two parts, and none in the first. -/
theorem splitOnce?_eq_some {separator : Char} {s before after : String}
    (h : splitOnce? separator s = some (before, after)) :
    s.toList = before.toList ++ separator :: after.toList ∧ separator ∉ before.toList := by
  unfold splitOnce? at h
  split at h
  · simp at h
  · next c rest hrest =>
    simp only [Option.some.injEq, Prod.mk.injEq] at h
    obtain ⟨rfl, rfl⟩ := h
    obtain rfl : c = separator := by
      have := List.head?_dropWhile_not (· != separator) s.toList
      simpa [hrest] using this
    simp only [String.toList_ofList]
    constructor
    · rw [← hrest, List.takeWhile_append_dropWhile]
    · intro hmem
      have hall : (s.toList.takeWhile (· != c)).all (· != c) := List.all_takeWhile
      simpa using List.all_eq_true.1 hall c hmem

/-- The items of a comma-separated list: trimmed, and empty ones left out. -/
def listItems (s : String) : List String :=
  ((splitFields ',' s.toList).map fun field => String.ofList (trimSpace field)).filter (· ≠ "")

end FieldShadow.Text
