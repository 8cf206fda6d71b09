import FieldShadow.Proofs.Token.Place
import FieldShadow.Text.Line

/-!
# Lines by their numbers

Places count line feeds, and a report cuts the text into lines that lose their ends. The two agree:
the line with the number of a place is the one that the place is in, and up to what stands there it
has as many characters as the column says (`exists_line_of_behind`). A carriage return is an
ordinary character to both, except in front of a line feed, where it is no character of the line.
-/

namespace FieldShadow.Text

/-! ## What a line is -/

/-- What stands behind a line: its line feed, which takes a carriage return in front of it along, or
the end of the text, where an empty line is none. -/
inductive LineEnd : (line rest : List Char) → Prop
  | lineFeed {line rest : List Char} (h : line.getLast? ≠ some '\r') : LineEnd line ('\n' :: rest)
  | carriageReturn {line rest : List Char} : LineEnd line ('\r' :: '\n' :: rest)
  | stop {line : List Char} (h : line ≠ []) : LineEnd line []

/-- The line of a text with a number, counted from one: there are so many line feeds in front of it,
one right before it, and none in it. -/
def IsLine (text : List Char) (number : Nat) (line : List Char) : Prop :=
  ∃ before rest, text = before ++ (line ++ rest) ∧ number = before.count '\n' + 1 ∧
    (∀ c ∈ before.getLast?, c = '\n') ∧ '\n' ∉ line ∧ LineEnd line rest

/-! ## Cutting a text into lines -/

/-- A character that ends no line stands in the first line. -/
theorem splitLines_cons {c : Char} {rest : List Char} (hc : c ≠ '\n')
    (hreturn : c = '\r' → rest.head? ≠ some '\n') :
    splitLines (c :: rest) = consToFirst c (splitLines rest) := by
  rw [splitLines.eq_def]
  split
  · next h => cases h
  · next h =>
    cases h
    exact absurd rfl hc
  · next h =>
    cases h
    exact absurd rfl (hreturn rfl)
  · next h =>
    cases h
    rfl

/-- The lines behind the first are left as they are. -/
theorem getElem?_consToFirst (c : Char) (lines : List (List Char)) (n : Nat) :
    (consToFirst c lines)[n + 1]? = lines[n + 1]? := by
  cases lines <;> simp [consToFirst]

/-- The first line of a text. -/
theorem splitLines_of_lineEnd {line rest : List Char} (hline : '\n' ∉ line)
    (hend : LineEnd line rest) : ∃ others, splitLines (line ++ rest) = line :: others := by
  induction line with
  | nil =>
    cases hend with
    | lineFeed => exact ⟨_, by rw [List.nil_append, splitLines]⟩
    | carriageReturn => exact ⟨_, by rw [List.nil_append, splitLines]⟩
    | stop h => exact absurd rfl h
  | cons c line ih =>
    have hc : c ≠ '\n' := fun h => hline (by simp [h])
    have hrest : '\n' ∉ line := fun h => hline (List.mem_cons_of_mem _ h)
    cases line with
    | nil =>
      -- the character is the last of its line, and behind it the line ends
      cases hend with
      | lineFeed h =>
        have hreturn : c ≠ '\r' := by simpa using h
        rw [List.singleton_append, splitLines_cons hc fun h => absurd h hreturn, splitLines]
        exact ⟨_, rfl⟩
      | carriageReturn =>
        rw [List.singleton_append, splitLines_cons hc fun _ => by simp, splitLines]
        exact ⟨_, rfl⟩
      | stop =>
        rw [List.singleton_append, splitLines_cons hc fun _ => by simp, splitLines]
        exact ⟨_, rfl⟩
    | cons d line =>
      have hend : LineEnd (d :: line) rest := by
        cases hend with
        | lineFeed h => exact .lineFeed (by simpa using h)
        | carriageReturn => exact .carriageReturn
        | stop => exact .stop (List.cons_ne_nil _ _)
      obtain ⟨others, heq⟩ := ih hrest hend
      have hd : d ≠ '\n' := fun h => hrest (by simp [h])
      rw [List.cons_append, splitLines_cons hc fun _ => by simpa using hd, heq]
      exact ⟨others, rfl⟩

/-- The last character of a text is the last one with more in front. -/
theorem mem_getLast?_cons {c d : Char} {text : List Char} (h : c ∈ text.getLast?) :
    c ∈ (d :: text).getLast? := by
  rw [List.getLast?_cons, Option.mem_def.mp h]
  rfl

/-- Lines in front of a text, each with its line feed, shift the numbers. -/
theorem getElem?_splitLines_append {before : List Char}
    (hbefore : ∀ c ∈ before.getLast?, c = '\n') (text : List Char) :
    (splitLines (before ++ text))[before.count '\n']? = (splitLines text)[0]? := by
  induction before using splitLines.induct with
  | case1 => rfl
  | case2 rest ih =>
    rw [List.cons_append, splitLines, List.count_cons_self, List.getElem?_cons_succ]
    exact ih fun c hc => hbefore c (mem_getLast?_cons hc)
  | case3 rest ih =>
    rw [List.cons_append, List.cons_append, splitLines, List.count_cons_of_ne (by decide),
      List.count_cons_self, List.getElem?_cons_succ]
    exact ih fun c hc => hbefore c (mem_getLast?_cons (mem_getLast?_cons hc))
  | case4 c rest hc hreturn ih =>
    have hne : c ≠ '\n' := hc
    -- the line of this character ends further on, so it is not the one that is asked for
    cases rest with
    | nil => exact absurd (hbefore c rfl) hne
    | cons d rest =>
      have hrest : ∀ c ∈ (d :: rest).getLast?, c = '\n' := fun c hc =>
        hbefore c (mem_getLast?_cons hc)
      have hpos : 0 < (d :: rest).count '\n' := by
        refine List.count_pos_iff.mpr ?_
        have hlast := List.getLast?_eq_some_getLast (List.cons_ne_nil d rest)
        rw [← hrest _ hlast]
        exact List.getLast_mem _
      obtain ⟨n, hn⟩ := Nat.exists_eq_add_one_of_ne_zero (Nat.ne_of_gt hpos)
      have hfeed : c = '\r' → (d :: rest ++ text).head? ≠ some '\n' := by
        rintro rfl h
        obtain rfl : d = '\n' := by simpa using h
        exact hreturn rest rfl rfl
      rw [List.cons_append, splitLines_cons hne hfeed, List.count_cons_of_ne hne, hn,
        getElem?_consToFirst, ← hn]
      exact ih hrest

/-- A line is found by its number. -/
theorem IsLine.getElem?_eq {text line : List Char} {number : Nat} (h : IsLine text number line) :
    0 < number ∧ (splitLines text)[number - 1]? = some line := by
  obtain ⟨before, rest, rfl, rfl, hbefore, hline, hend⟩ := h
  obtain ⟨others, hfirst⟩ := splitLines_of_lineEnd hline hend
  refine ⟨Nat.succ_pos _, ?_⟩
  rw [Nat.add_sub_cancel, getElem?_splitLines_append hbefore, hfirst]
  rfl

/-! ## The line of a place -/

/-- The line that a word ends in, if the word can have no part in the end of the line. -/
theorem exists_lineEnd {word : List Char} (hne : word ≠ []) (hreturn : '\r' ∉ word)
    (text : List Char) : ∃ tail rest, text = tail ++ rest ∧ '\n' ∉ tail ∧
      LineEnd (word ++ tail) rest := by
  obtain ⟨body, feed, rfl, -, hbody, hfeed⟩ := Piece.exists_line text
  cases feed with
  | nil => exact ⟨body, [], rfl, hbody, .stop (by simp [hne])⟩
  | cons d feed =>
    obtain rfl : d = '\n' := hfeed d rfl
    by_cases hlast : (word ++ body).getLast? = some '\r'
    · -- the carriage return is the last character of the body, since the word has none
      rcases List.eq_nil_or_concat body with rfl | ⟨tail, last, rfl⟩
      · rw [List.append_nil] at hlast
        exact absurd (List.mem_of_getLast? hlast) hreturn
      · rw [List.concat_eq_append] at hbody hlast ⊢
        obtain rfl : last = '\r' := by simpa [← List.append_assoc] using hlast
        refine ⟨tail, '\r' :: '\n' :: feed, by simp, ?_, .carriageReturn⟩
        exact fun h => hbody (List.mem_append_left _ h)
    · exact ⟨body, '\n' :: feed, rfl, hbody, .lineFeed hlast⟩

/-- A text up to the start of its last line, and that line. -/
theorem exists_lineStart (text : List Char) :
    ∃ before lead, text = before ++ lead ∧ (∀ c ∈ before.getLast?, c = '\n') ∧ '\n' ∉ lead ∧
      Position.behind text = ⟨before.count '\n' + 1, lead.length + 1⟩ := by
  obtain ⟨lead, before, htext, htake, hlead, hbefore⟩ := Piece.exists_line text.reverse
  have htext : text = before.reverse ++ lead.reverse := by
    rw [← List.reverse_append, ← htext, List.reverse_reverse]
  have hlead : '\n' ∉ lead.reverse := by simpa using hlead
  refine ⟨before.reverse, lead.reverse, htext, by simpa using hbefore, hlead, ?_⟩
  rw [Position.behind, htake, htext, List.count_append, List.count_eq_zero.mpr hlead,
    List.length_reverse]

/-- The place of a word and its line agree, whatever stands in front of it and behind it. -/
theorem exists_line_of_behind {word : List Char} (hne : word ≠ []) (hfeed : '\n' ∉ word)
    (hreturn : '\r' ∉ word) (front rest : List Char) :
    ∃ lead tail, IsLine (front ++ word ++ rest) (Position.behind front).line
        (lead ++ (word ++ tail)) ∧ (Position.behind front).column = lead.length + 1 := by
  obtain ⟨before, lead, rfl, hbefore, hlead, hplace⟩ := exists_lineStart front
  obtain ⟨tail, rest, rfl, htail, hend⟩ := exists_lineEnd hne hreturn rest
  refine ⟨lead, tail, ?_, by rw [hplace]⟩
  refine ⟨before, rest, by simp, by rw [hplace], hbefore, by simp [hlead, hfeed, htail], ?_⟩
  cases hend with
  | lineFeed h =>
    refine .lineFeed fun hlast => h ?_
    rwa [List.getLast?_append, Option.or_of_isSome (by simp [hne])] at hlast
  | carriageReturn => exact .carriageReturn
  | stop h => exact .stop (by simp [hne])

end FieldShadow.Text
