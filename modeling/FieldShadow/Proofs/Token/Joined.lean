import FieldShadow.Proofs.Token.Comment

/-!
# Texts behind each other

The tokens of two texts with a line feed between them are those of the first and then those of the
second, so many lines further down as the first text and the line feed have (`tokenize_append`).
-/

namespace FieldShadow

/-! ## Places further down -/

/-- A place so many lines further down. -/
def Position.below (lines : Nat) (p : Position) : Position :=
  { p with line := p.line + lines }

/-- A stretch so many lines further down. -/
def Span.below (lines : Nat) (s : Span) : Span :=
  ⟨s.start.below lines, s.stop.below lines⟩

/-- A token so many lines further down. -/
def Lexeme.below (lines : Nat) (l : Lexeme) : Lexeme :=
  { l with span := l.span.below lines }

namespace Position

/-- Passing a character further down leads as much further down. -/
theorem after_below (lines : Nat) (p : Position) (c : Char) :
    (p.below lines).after c = (p.after c).below lines := by
  unfold after
  split
  · rw [below, below, Nat.add_right_comm]
  · rfl

theorem afterAll_below (lines : Nat) (p : Position) (text : List Char) :
    (p.below lines).afterAll text = (p.afterAll text).below lines := by
  induction text generalizing p with
  | nil => rfl
  | cons c text ih => rw [afterAll_cons, after_below, ih, afterAll_cons]

/-- Each line feed leads to the next line. -/
theorem line_afterAll (p : Position) (text : List Char) :
    (p.afterAll text).line = p.line + text.count '\n' := by
  induction text generalizing p with
  | nil => rfl
  | cons c text ih =>
    rw [afterAll_cons, ih]
    unfold after
    split
    · next hc => simp [hc]; omega
    · next hc => simp [hc, next]

/-- Behind a text and a line feed the next line begins. -/
theorem afterAll_lineFeed (text : List Char) :
    Position.afterAll ⟨1, 0⟩ (text ++ ['\n']) = Position.below (1 + text.count '\n') ⟨1, 0⟩ := by
  rw [afterAll_append, afterAll_cons, after, if_pos rfl, line_afterAll]
  simp [below]
  omega

end Position

/-! ## Tokens behind a text -/

namespace Piece

/-- The tokens of a text further down are those of the text, moved. -/
theorem written_below (lines : Nat) (p : Position) (pieces : List (Piece × List Char)) :
    written (p.below lines) pieces = (written p pieces).map (Lexeme.below lines) := by
  induction pieces generalizing p with
  | nil => rfl
  | cons x pieces ih =>
    obtain ⟨piece, x⟩ := x
    cases piece with
    | token t =>
      simp only [written, Position.afterAll_below, ih, List.map_cons]
      rfl
    | blank | flaw => simp only [written, Position.afterAll_below, ih]

/-- No piece of a text is the end. -/
theorem token_ne_eof {p : Position} {text : List Char} :
    ∀ l ∈ written p (cut text), l.token ≠ .eof := by
  fun_induction cut text generalizing p with
  | case1 => simp [written]
  | case2 c rest ih =>
    cases hfirst : first c rest with
    | mk piece n =>
    rw [hfirst] at ih
    cases piece with
    | token t => exact List.forall_mem_cons.mpr ⟨(isSpelling_of_first hfirst).1, ih⟩
    | blank | flaw => exact ih

end Piece

open Piece

/-- The end of the text is the last token and no other. -/
theorem exists_of_tokenize {source : String} {ls : List Lexeme} (h : tokenize source = .ok ls) :
    ∃ row s, ls = row ++ [⟨.eof, s⟩] ∧ ∀ l ∈ row, l.token ≠ .eof := by
  obtain ⟨-, rfl⟩ := tokenize_eq_ok.mp h
  exact ⟨_, _, rfl, token_ne_eof⟩

/-- Two texts with a line feed between them are tokenized to the tokens of both, the second moved
down by the lines of the first. -/
theorem tokenize_append {first second : String} {row row' : List Lexeme} {s s' : Span}
    (h : tokenize first = .ok (row ++ [⟨.eof, s⟩]))
    (h' : tokenize second = .ok (row' ++ [⟨.eof, s'⟩])) :
    tokenize (first ++ "\n" ++ second) =
      .ok (row ++ row'.map (Lexeme.below (1 + first.toList.count '\n')) ++
        [⟨.eof, s'.below (1 + first.toList.count '\n')⟩]) := by
  obtain ⟨hsound, hrow⟩ := tokenize_eq_ok.mp h
  obtain ⟨hsound', hrow'⟩ := tokenize_eq_ok.mp h'
  obtain ⟨rfl, -⟩ := List.append_inj' hrow rfl
  obtain ⟨rfl, hlast⟩ := List.append_inj' hrow' rfl
  obtain rfl := congrArg Lexeme.span (List.cons.inj hlast).1
  have htext : (first ++ "\n" ++ second).toList = first.toList ++ '\n' :: second.toList := by
    simp
  have hcut : cut (first.toList ++ '\n' :: second.toList) =
      cut first.toList ++ (.blank, ['\n']) :: cut second.toList := by
    rw [cut_append hsound fun x _ d hd => ?_, cut_white (by decide)]
    obtain rfl : '\n' = d := by simpa using hd
    exact absorbs_lineFeed x.2
  -- the second source begins at the first column, so many lines further down
  have hplace : (Position.afterAll ⟨1, 0⟩ first.toList).afterAll ['\n'] =
      Position.below (1 + first.toList.count '\n') ⟨1, 0⟩ := by
    rw [← Position.afterAll_append, Position.afterAll_lineFeed]
  have hend : Position.afterAll ⟨1, 0⟩ (first.toList ++ '\n' :: second.toList) =
      (Position.afterAll ⟨1, 0⟩ second.toList).below (1 + first.toList.count '\n') := by
    rw [← Position.afterAll_below, ← hplace]
    exact Position.afterAll_append ..
  rw [tokenize_eq_ok, htext, hcut]
  refine ⟨sound_append.mpr ⟨hsound, sound_cons.mpr ⟨by simp, hsound'⟩⟩, ?_⟩
  rw [written_append, textOf_cut, written, hplace, written_below, hend]
  rfl

end FieldShadow
