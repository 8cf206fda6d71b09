import FieldShadow.Unicode.Property
import FieldShadow.Pattern.CharClass

/-!
# Settings of patterns

The settings that a pattern is read under. In verbose patterns white space and comments may stand
between the characters of most parts; `spaced` passes them.
-/

namespace FieldShadow.Pattern

/-- The settings that a place of a pattern is read under. -/
structure Flags where
  ignoreCase : Bool := false
  multiLine : Bool := false
  dotAll : Bool := false
  swapGreed : Bool := false
  unicode : Bool := true
  carriageReturns : Bool := false
  verbose : Bool := false
  deriving DecidableEq, Repr

/-- How letters of different case are taken under the settings. -/
def Flags.caseRule (f : Flags) : CaseRule :=
  if !f.ignoreCase then .exact else if f.unicode then .folded else .asciiFolded

/-- Passes white space and comments; `inComment` tells whether a comment has begun. -/
def skipSpace (inComment : Bool) : List Char → List Char
  | [] => []
  | c :: rest =>
    if inComment then skipSpace (c != '\n') rest
    else if Unicode.isWhiteSpace c then skipSpace false rest
    else if c = '#' then skipSpace true rest
    else c :: rest

theorem length_skipSpace_le (inComment : Bool) (cs : List Char) :
    (skipSpace inComment cs).length ≤ cs.length := by
  fun_induction skipSpace inComment cs <;> simp_all <;> omega

/-- Passes white space and comments in a verbose pattern. -/
def spaced (verbose : Bool) (cs : List Char) : List Char :=
  if verbose then skipSpace false cs else cs

theorem length_spaced_le (verbose : Bool) (cs : List Char) :
    (spaced verbose cs).length ≤ cs.length := by
  unfold spaced
  split
  · exact length_skipSpace_le false cs
  · exact Nat.le_refl _

end FieldShadow.Pattern
