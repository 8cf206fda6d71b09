import FieldShadow.Pattern.Expr
import FieldShadow.Pattern.Flags

/-!
# Escapes

What may stand behind a backslash: a character that would mean something else without it, a
character told by its code point, a class, or a condition. Every reader gives what it read with the
characters behind it, or nothing if there is no such part; the lemmas say that the characters behind
it are not more than there were.
-/

namespace FieldShadow.Pattern

/-- The value of a hexadecimal digit. -/
def hexValue? (c : Char) : Option Nat :=
  if c.isDigit then some (c.toNat - '0'.toNat)
  else if 'a' ≤ c ∧ c ≤ 'f' then some (c.toNat - 'a'.toNat + 10)
  else if 'A' ≤ c ∧ c ≤ 'F' then some (c.toNat - 'A'.toNat + 10)
  else none

/-- The character with a code point. -/
def charOfCode? (n : Nat) : Option Char :=
  if n.isValidChar then some (Char.ofNat n) else none

/-- Reads `n` hexadecimal digits. -/
def fixedHex (verbose : Bool) : (n value : Nat) → List Char → Option (Nat × List Char)
  | 0, value, cs => some (value, cs)
  | _ + 1, _, [] => none
  | n + 1, value, c :: rest => do
    fixedHex verbose n (value * 16 + (← hexValue? c)) (spaced verbose rest)

theorem length_fixedHex_le {verbose : Bool} {n value m : Nat} {cs rest : List Char}
    (h : fixedHex verbose n value cs = some (m, rest)) : rest.length ≤ cs.length := by
  induction n generalizing value cs with
  | zero => simp [fixedHex] at h; simp [h]
  | succ n ih =>
    cases cs with
    | nil => simp [fixedHex] at h
    | cons c cs =>
      simp only [fixedHex, Option.bind_eq_bind, Option.bind_eq_some_iff] at h
      obtain ⟨_, -, h⟩ := h
      have := length_spaced_le verbose cs
      have := ih h
      simp only [List.length_cons]
      omega

/-- Reads hexadecimal digits up to a closing brace; `any` tells whether there was one already. -/
def bracedHex (verbose any : Bool) (value : Nat) (cs : List Char) : Option (Nat × List Char) :=
  match h : spaced verbose cs with
  | [] => none
  | c :: rest =>
    if c = '}' then if any then some (value, spaced verbose rest) else none
    else do bracedHex verbose true (value * 16 + (← hexValue? c)) rest
termination_by cs.length
decreasing_by
  have := length_spaced_le verbose cs
  simp [h] at this
  omega

theorem length_bracedHex_le {verbose any : Bool} {value m : Nat} {cs rest : List Char}
    (h : bracedHex verbose any value cs = some (m, rest)) : rest.length ≤ cs.length := by
  induction hn : cs.length using Nat.strongRecOn generalizing any value cs with
  | ind n ih =>
    have hs := length_spaced_le verbose cs
    rw [bracedHex] at h
    split at h
    · simp at h
    · rename_i c r heq
      simp only [heq, List.length_cons] at hs
      split at h
      · split at h
        · simp only [Option.some.injEq, Prod.mk.injEq] at h
          have := length_spaced_le verbose r
          rw [← h.2]
          omega
        · simp at h
      · simp only [Option.bind_eq_bind, Option.bind_eq_some_iff] at h
        obtain ⟨_, -, h⟩ := h
        have := ih r.length (by omega) h rfl
        omega

/-- Reads the code point of a character behind the letter of its escape, and tells whether it stood
in braces. -/
def hexEscape (verbose : Bool) (digits : Nat) (cs : List Char) :
    Option ((Char × Bool) × List Char) :=
  match spaced verbose cs with
  | '{' :: rest => do
    let (value, rest) ← bracedHex verbose false 0 rest
    return ((← charOfCode? value, true), rest)
  | rest => do
    let (value, rest) ← fixedHex verbose digits 0 rest
    return ((← charOfCode? value, false), rest)

theorem length_hexEscape_le {verbose : Bool} {n : Nat} {cs rest : List Char} {r : Char × Bool}
    (h : hexEscape verbose n cs = some (r, rest)) : rest.length ≤ cs.length := by
  have hs := length_spaced_le verbose cs
  unfold hexEscape at h
  split at h <;>
    simp only [Option.bind_eq_bind, Option.bind_eq_some_iff, Option.pure_def, Option.some.injEq,
      Prod.mk.injEq] at h
  · rename_i tail heq
    simp only [heq, List.length_cons] at hs
    obtain ⟨_, hb, _, -, -, rfl⟩ := h
    have := length_bracedHex_le hb
    omega
  · obtain ⟨_, hb, _, -, -, rfl⟩ := h
    exact Nat.le_trans (length_fixedHex_le hb) hs

/-- What an escape stands for. `byte` marks the characters that are written as the two digits of a
byte. -/
inductive Escape where
  | literal (c : Char) (byte : Bool)
  | named (k : NamedClass) (negated : Bool)
  | anchor (a : Anchor)

/-- The class of an escape inside brackets, where a condition has no meaning. -/
def Escape.toClass? : Escape → Option CharClass
  | .literal c _ => some (.range c c)
  | .named k negated => some (.named k .exact negated)
  | .anchor _ => none

/-- The letters of the name of a word edge, up to the first other character. -/
def edgeName (verbose : Bool) (cs : List Char) : List Char × List Char :=
  match cs with
  | [] => ([], [])
  | c :: rest =>
    if c.isAlpha || c == '-' then
      let (name, rest) := edgeName verbose (spaced verbose rest)
      (c :: name, rest)
    else ([], c :: rest)
termination_by cs.length
decreasing_by
  have := length_spaced_le verbose rest
  simp only [List.length_cons]
  omega

theorem length_edgeName_le (verbose : Bool) (cs : List Char) :
    (edgeName verbose cs).2.length ≤ cs.length := by
  fun_induction edgeName verbose cs with
  | case1 => simp
  | case2 c rest _ _ _ heq ih =>
    have := length_spaced_le verbose rest
    simp_all only [List.length_cons]
    omega
  | case3 => simp

/-- Reads which edge of a word is meant, if a name in braces follows. Braces around anything else
are left to be read as a repetition. -/
def wordEdge (verbose : Bool) (cs : List Char) : Option (WordEdge × List Char) :=
  match cs with
  | '{' :: inner =>
    match edgeName verbose (spaced verbose inner) with
    | ([], []) => none
    | ([], _) => some (.either, cs)
    | (name, '}' :: rest) =>
      match String.ofList name with
      | "start" => some (.start, rest)
      | "end" => some (.stop, rest)
      | "start-half" => some (.startHalf, rest)
      | "end-half" => some (.stopHalf, rest)
      | _ => none
    | _ => none
  | _ => some (.either, cs)

theorem length_wordEdge_le {verbose : Bool} {cs rest : List Char} {e : WordEdge}
    (h : wordEdge verbose cs = some (e, rest)) : rest.length ≤ cs.length := by
  unfold wordEdge at h
  split at h
  · rename_i inner
    have h1 := length_edgeName_le verbose (spaced verbose inner)
    have h2 := length_spaced_le verbose inner
    split at h
    · simp at h
    · simp only [Option.some.injEq, Prod.mk.injEq] at h
      exact Nat.le_of_eq (congrArg _ h.2.symm)
    · rename_i name r _ heq
      simp only [heq, List.length_cons] at h1
      split at h <;> simp only [Option.some.injEq, Prod.mk.injEq, reduceCtorEq] at h
      all_goals
        rw [← h.2]
        simp only [List.length_cons]
        omega
    · simp at h
  · simp only [Option.some.injEq, Prod.mk.injEq] at h
    exact Nat.le_of_eq (congrArg _ h.2.symm)

/-- Reads an escape behind its backslash. A digit would refer to a group, which patterns cannot;
any other ASCII character that is no letter stands for itself. -/
def escape (f : Flags) : List Char → Option (Escape × List Char)
  | [] => none
  | c :: rest =>
    let literal (d : Char) : Option (Escape × List Char) := some (.literal d false, rest)
    let named (k : NamedClass) (negated : Bool) : Option (Escape × List Char) :=
      some (.named k negated, rest)
    let anchor (a : Anchor) : Option (Escape × List Char) := some (.anchor a, rest)
    let hex (n : Nat) : Option (Escape × List Char) :=
      (hexEscape f.verbose n rest).map fun r => (.literal r.1.1 (n == 2 && !r.1.2), r.2)
    match c with
    | 'x' => hex 2
    | 'u' => hex 4
    | 'U' => hex 8
    | 'd' => named (.digit !f.unicode) false
    | 'D' => named (.digit !f.unicode) true
    | 's' => named (.space !f.unicode) false
    | 'S' => named (.space !f.unicode) true
    | 'w' => named (.word !f.unicode) false
    | 'W' => named (.word !f.unicode) true
    | 'a' => literal '\x07'
    | 'f' => literal '\x0c'
    | 't' => literal '\t'
    | 'n' => literal '\n'
    | 'r' => literal '\r'
    | 'v' => literal '\x0b'
    | 'A' => anchor .textStart
    | 'z' => anchor .textEnd
    | 'b' => (wordEdge f.verbose rest).map fun r => (.anchor (.word r.1 !f.unicode), r.2)
    | 'B' => anchor (.word .neither !f.unicode)
    | '<' => anchor (.word .start !f.unicode)
    | '>' => anchor (.word .stop !f.unicode)
    | _ => if c.toNat < 0x80 && !c.isAlphanum then literal c else none

/-- An escape takes one character at least. -/
theorem length_escape_lt {f : Flags} {cs rest : List Char} {e : Escape}
    (h : escape f cs = some (e, rest)) : rest.length < cs.length := by
  cases cs with
  | nil => simp [escape] at h
  | cons c tail =>
    simp only [List.length_cons, Nat.lt_succ_iff]
    simp only [escape] at h
    split at h
    all_goals
      first
        | simp only [Option.some.injEq, Prod.mk.injEq] at h
          exact Nat.le_of_eq (congrArg _ h.2.symm)
        | simp only [Option.map_eq_some_iff, Prod.mk.injEq] at h
          obtain ⟨_, hx, -, rfl⟩ := h
          first
            | exact length_wordEdge_le hx
            | exact length_hexEscape_le hx
        | split at h
          · simp only [Option.some.injEq, Prod.mk.injEq] at h
            exact Nat.le_of_eq (congrArg _ h.2.symm)
          · simp at h

end FieldShadow.Pattern
