import FieldShadow.Pattern.Flags

/-!
# Bounds of repetitions

How often a part of a pattern may be matched, as it is written in braces behind the part. The lemmas
say that what is left to read is not more than there was.
-/

namespace FieldShadow.Pattern

/-- Reads decimal digits; `none` if there are none so far and none follow. -/
def digits (verbose : Bool) (value? : Option Nat) (cs : List Char) : Option (Nat × List Char) :=
  match cs with
  | [] => value?.map fun value => (value, [])
  | c :: rest =>
    if c.isDigit then
      digits verbose (some (value?.getD 0 * 10 + (c.toNat - '0'.toNat))) (spaced verbose rest)
    else value?.map fun value => (value, c :: rest)
termination_by cs.length
decreasing_by
  have := length_spaced_le verbose rest
  simp only [List.length_cons]
  omega

theorem length_digits_le {verbose : Bool} {value? : Option Nat} {m : Nat} {cs rest : List Char}
    (h : digits verbose value? cs = some (m, rest)) : rest.length ≤ cs.length := by
  induction hn : cs.length using Nat.strongRecOn generalizing value? cs with
  | ind n ih =>
    cases cs with
    | nil =>
      simp only [digits, Option.map_eq_some_iff, Prod.mk.injEq] at h
      obtain ⟨_, -, -, rfl⟩ := h
      simp
    | cons c r =>
      rw [digits] at h
      have := length_spaced_le verbose r
      simp only [List.length_cons] at hn
      split at h
      · have := ih (spaced verbose r).length (by omega) h rfl
        omega
      · simp only [Option.map_eq_some_iff, Prod.mk.injEq] at h
        obtain ⟨_, -, -, rfl⟩ := h
        simp only [List.length_cons]
        omega

/-- Reads a count, which fits into 32 bits; white space around it is passed in every pattern. -/
def count (verbose : Bool) (cs : List Char) : Option (Nat × List Char) := do
  let (n, rest) ← digits verbose none (cs.dropWhile Unicode.isWhiteSpace)
  let rest := rest.dropWhile Unicode.isWhiteSpace
  if n < 0x100000000 then some (n, rest) else none

theorem length_dropWhile_le {α : Type} (p : α → Bool) (l : List α) :
    (l.dropWhile p).length ≤ l.length :=
  (List.dropWhile_sublist p).length_le

theorem length_count_le {verbose : Bool} {m : Nat} {cs rest : List Char}
    (h : count verbose cs = some (m, rest)) : rest.length ≤ cs.length := by
  simp only [count, Option.bind_eq_bind, Option.bind_eq_some_iff] at h
  obtain ⟨⟨_, r⟩, hd, h⟩ := h
  have h1 := length_digits_le hd
  have h2 := length_dropWhile_le Unicode.isWhiteSpace cs
  have h3 := length_dropWhile_le Unicode.isWhiteSpace r
  split at h
  · simp only [Option.some.injEq, Prod.mk.injEq] at h
    rw [← h.2]
    omega
  · simp at h

/-- Reads the bounds of a repetition behind their opening brace. -/
def bounds (verbose : Bool) (cs : List Char) : Option ((Nat × Option Nat) × List Char) := do
  let (least, rest) ← count verbose (spaced verbose cs)
  match rest with
  | '}' :: rest => some ((least, some least), spaced verbose rest)
  | ',' :: rest =>
    match spaced verbose rest with
    | '}' :: rest => some ((least, none), spaced verbose rest)
    | rest =>
      let (most, rest) ← count verbose rest
      match rest with
      | '}' :: rest => if least ≤ most then some ((least, some most), spaced verbose rest) else none
      | _ => none
  | _ => none

theorem length_bounds_le {verbose : Bool} {b : Nat × Option Nat} {cs rest : List Char}
    (h : bounds verbose cs = some (b, rest)) : rest.length ≤ cs.length := by
  simp only [bounds, Option.bind_eq_bind, Option.bind_eq_some_iff] at h
  obtain ⟨⟨_, r⟩, hc, h⟩ := h
  have h0 := length_spaced_le verbose cs
  have h1 := length_count_le hc
  split at h
  · rename_i r' heq
    have := length_spaced_le verbose r'
    simp only [Option.some.injEq, Prod.mk.injEq] at h
    simp only at heq
    simp only [heq, List.length_cons] at h1
    rw [← h.2]
    omega
  · rename_i r' heq
    simp only at heq
    simp only [heq, List.length_cons] at h1
    have h2 := length_spaced_le verbose r'
    split at h
    · rename_i r'' heq'
      have := length_spaced_le verbose r''
      simp only [Option.some.injEq, Prod.mk.injEq] at h
      simp only [heq', List.length_cons] at h2
      rw [← h.2]
      omega
    · simp only [Option.bind_eq_some_iff] at h
      obtain ⟨⟨_, r2⟩, hc2, h⟩ := h
      have h3 := length_count_le hc2
      split at h
      · rename_i r3 heq3
        simp only at heq3
        simp only [heq3, List.length_cons] at h3
        have := length_spaced_le verbose r3
        split at h
        · simp only [Option.some.injEq, Prod.mk.injEq] at h
          rw [← h.2]
          omega
        · simp at h
      · simp at h
  · simp at h

/-- Passes the mark of a repetition that prefers the other length, and tells whether the repetition
prefers to be long. -/
def lazyMark (f : Flags) : List Char → Bool × List Char
  | '?' :: rest => (f.swapGreed, rest)
  | rest => (!f.swapGreed, rest)

theorem length_lazyMark_le (f : Flags) (cs : List Char) :
    (lazyMark f cs).2.length ≤ cs.length := by
  unfold lazyMark
  split <;> simp

end FieldShadow.Pattern
