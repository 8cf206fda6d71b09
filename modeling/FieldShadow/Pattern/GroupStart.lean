import FieldShadow.Pattern.Flags

/-!
# Starts of groups

What may stand behind an opening parenthesis: flags, or the name of the group. The lemmas say that
what is left to read is not more than there was.
-/

namespace FieldShadow.Pattern

/-- The flag of a letter, switched on or off. -/
def Flags.set? (f : Flags) (letter : Char) (on : Bool) : Option Flags :=
  match letter with
  | 'i' => some { f with ignoreCase := on }
  | 'm' => some { f with multiLine := on }
  | 's' => some { f with dotAll := on }
  | 'U' => some { f with swapGreed := on }
  | 'u' => some { f with unicode := on }
  | 'R' => some { f with carriageReturns := on }
  | 'x' => some { f with verbose := on }
  | _ => none

/-- Reads flags up to a colon or a closing parenthesis, and tells whether it was the colon. No flag
may be repeated, and a minus stands once and in front of a flag; a closing parenthesis needs at
least one flag before it. -/
def readFlags (f : Flags) (seen : List Char) (negated dangling : Bool) :
    List Char → Option ((Flags × Bool) × List Char)
  | [] => none
  | c :: rest =>
    if c = ':' then if dangling then none else some ((f, true), rest)
    else if c = ')' then if dangling || seen.isEmpty then none else some ((f, false), rest)
    else if c = '-' then if negated then none else readFlags f seen true true rest
    else if seen.contains c then none
    else match f.set? c !negated with
      | none => none
      | some f' => readFlags f' (c :: seen) negated false rest

theorem length_readFlags_le {f f' : Flags} {seen : List Char} {negated dangling opens : Bool}
    {cs rest : List Char} (h : readFlags f seen negated dangling cs = some ((f', opens), rest)) :
    rest.length ≤ cs.length := by
  induction cs generalizing f seen negated dangling with
  | nil => simp [readFlags] at h
  | cons c cs ih =>
    simp only [List.length_cons]
    rw [readFlags] at h
    split at h
    · split at h
      · simp at h
      · simp only [Option.some.injEq, Prod.mk.injEq] at h
        rw [← h.2]; omega
    · split at h
      · split at h
        · simp at h
        · simp only [Option.some.injEq, Prod.mk.injEq] at h
          rw [← h.2]; omega
      · split at h
        · split at h
          · simp at h
          · exact Nat.le_succ_of_le (ih h)
        · split at h
          · simp at h
          · split at h
            · simp at h
            · exact Nat.le_succ_of_le (ih h)

/-- A character that a group name may go on with. -/
def isNamePart (c : Char) : Bool :=
  Unicode.isAlphanumeric c || ['_', '.', '[', ']'].contains c

/-- Reads the name of a group up to and with the closing angle bracket. -/
def groupName (cs : List Char) : Option (String × List Char) :=
  match cs.takeWhile (· != '>'), cs.dropWhile (· != '>') with
  | first :: others, _ :: rest =>
    if (first == '_' || Unicode.isAlphabetic first) && others.all isNamePart then
      some (String.ofList (first :: others), rest)
    else none
  | _, _ => none

theorem length_groupName_le {name : String} {cs rest : List Char}
    (h : groupName cs = some (name, rest)) : rest.length ≤ cs.length := by
  unfold groupName at h
  split at h
  · rename_i first others c r _ heq
    have := (List.dropWhile_sublist (l := cs) (· != '>')).length_le
    simp only [heq, List.length_cons] at this
    split at h
    · simp only [Option.some.injEq, Prod.mk.injEq] at h
      rw [← h.2]; omega
    · simp at h
  · simp at h

end FieldShadow.Pattern
