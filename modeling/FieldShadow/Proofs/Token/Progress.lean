import FieldShadow.Proofs.Token.Text

/-!
# Reading on behind flaws

A scanner that is called again and again, also after it has found a flaw, reads the text to its end
and knows its place all the way (`Scanner.calls_keep_place`). One call passes over layout and then
either reads a token, or passes over a flawed stretch, or is at the end (`Scanner.next_readsOn`).
-/

namespace FieldShadow

open Piece

/-- What a call gives that reads the text `passed` when the text `before` stands in front of it and
`rest` is left behind it. -/
inductive ReadsOn (before rest : List Char) : (passed : List Char) → Except LexError Lexeme → Prop
  | stop {layout : List Char} (hrest : rest = []) (hlayout : Layout [] layout) :
      ReadsOn before rest layout (.ok ⟨.eof, .at (.behind (before ++ layout))⟩)
  | token {layout word : List Char} {last : Char} {t : Token}
      (hlayout : Layout (word ++ last :: rest) layout) (ht : t ≠ .eof)
      (hspelling : t.spelling.toList = word ++ [last]) :
      ReadsOn before rest (layout ++ word ++ [last])
        (.ok ⟨t, ⟨.behind (before ++ layout), .behind (before ++ layout ++ word)⟩⟩)
  | flaw {layout stretch : List Char} {c : Char} {f : Flaw}
      (hlayout : Layout (c :: stretch ++ rest) layout)
      (hflaw : first c (stretch ++ rest) = (.flaw f, stretch.length)) :
      ReadsOn before rest (layout ++ c :: stretch) (.error ⟨f, .behind (before ++ layout)⟩)

/-- Whether a call has found the end of its text. -/
def IsEnd (result : Except LexError Lexeme) : Prop :=
  ∃ span, result = .ok ⟨.eof, span⟩

namespace ReadsOn

variable {before rest passed : List Char} {result : Except LexError Lexeme}

/-- Layout in front of the text that a call reads. -/
theorem layout_append {x : List Char} (h : ReadsOn (before ++ x) rest passed result)
    (hx : ∀ {layout behind}, passed ++ rest = layout ++ behind → Layout behind layout →
      Layout behind (x ++ layout)) : ReadsOn before rest (x ++ passed) result := by
  cases h with
  | stop hrest hlayout =>
    rw [List.append_assoc]
    exact .stop hrest (hx (by rw [hrest]) hlayout)
  | @token layout word last t hlayout ht hspelling =>
    have hreads : ReadsOn before rest _ _ := .token (hx (by simp) hlayout) ht hspelling
    simpa using hreads
  | @flaw layout stretch c f hlayout hflaw =>
    have hreads : ReadsOn before rest _ _ := .flaw (hx (by simp) hlayout) hflaw
    simpa using hreads

theorem passed_ne_nil (h : ReadsOn before rest passed result) (hend : ¬ IsEnd result) :
    passed ≠ [] := by
  cases h with
  | stop => exact absurd ⟨_, rfl⟩ hend
  | token | flaw => simp

theorem rest_eq_nil (h : ReadsOn before rest passed result) (hend : IsEnd result) : rest = [] := by
  obtain ⟨span, hresult⟩ := hend
  cases h with
  | stop hrest => exact hrest
  | token _ ht => exact absurd (congrArg Lexeme.token (Except.ok.inj hresult)) ht
  | flaw => cases hresult

end ReadsOn

namespace Scanner

/-! ## One call -/

/-- A call that begins behind `before` ends behind what it has read. -/
theorem next_readsOn (s : Scanner) (before : List Char)
    (h : s.position = .afterAll ⟨1, 0⟩ before) :
    ∃ passed, s.rest = passed ++ s.next.2.rest ∧
      s.next.2.position = .afterAll ⟨1, 0⟩ (before ++ passed) ∧
      ReadsOn before s.next.2.rest passed s.next.1 := by
  fun_induction next s generalizing before with
  | case1 s hnone =>
    have hrest := rest_eq_nil_of_piece? hnone
    have hreads : ReadsOn before s.rest _ _ := .stop hrest .nil
    rw [List.append_nil, ← Position.next_afterAll, ← h] at hreads
    exact ⟨[], rfl, by rw [h, List.append_nil], hreads⟩
  | case2 s span after hpiece ih =>
    obtain ⟨c, more, n, hrest, hfirst, hafter, -, hposition⟩ := exists_first_of_piece? hpiece
    rw [h, ← Position.afterAll_append] at hposition
    obtain ⟨passed, hpassed, hstop, hreads⟩ := ih _ hposition
    have hdrop : more.drop n = passed ++ after.next.2.rest := by rw [← hafter, hpassed]
    refine ⟨c :: more.take n ++ passed, ?_, by rw [hstop, List.append_assoc], ?_⟩
    · rw [hrest, List.append_assoc, ← hdrop, List.cons_append, List.take_append_drop]
    · -- white space and comments belong to the layout in front of whatever comes next
      exact hreads.layout_append fun hsplit => layout_of_first hfirst (hdrop.trans hsplit)
  | case3 s t span after hpiece =>
    obtain ⟨c, more, n, hrest, hfirst, hafter, rfl, hposition⟩ := exists_first_of_piece? hpiece
    obtain ⟨ht, hspelling, word, last, hword, hlast⟩ := isSpelling_of_first hfirst
    rw [h, ← Position.afterAll_append] at hposition
    have hreads : ReadsOn before after.rest _ _ := .token .nil ht (hspelling.trans hword)
    -- a token ends at its last character, and the scanner stands one place behind it
    have hstop : after.position = .behind (before ++ word) := by
      rw [hposition, hword, ← List.append_assoc, Position.afterAll_concat _ hlast]
    refine ⟨word ++ [last], ?_, by rw [hposition, hword], ?_⟩
    · rw [hrest, hafter, ← hword, List.cons_append, List.take_append_drop]
    · simpa [h, Position.next_afterAll, hstop] using hreads
  | case4 s f span after hpiece =>
    obtain ⟨c, more, n, hrest, hfirst, hafter, rfl, hposition⟩ := exists_first_of_piece? hpiece
    rw [h, ← Position.afterAll_append] at hposition
    have hle : n ≤ more.length := by
      have := first_le c more
      rwa [hfirst] at this
    -- the flaw is found in the very characters that are passed
    have hflaw : first c (more.take n ++ after.rest) = (.flaw f, (more.take n).length) := by
      rw [hafter, List.take_append_drop, List.length_take_of_le hle, hfirst]
    have hreads : ReadsOn before after.rest _ _ := .flaw .nil hflaw
    refine ⟨c :: more.take n, ?_, hposition, ?_⟩
    · rw [hrest, hafter, List.cons_append, List.take_append_drop]
    · simpa [h, Position.next_afterAll] using hreads

/-- Once the end is found, another call finds it again and leaves the scanner where it is. -/
theorem next_of_isEnd {s : Scanner} {before : List Char}
    (h : s.position = .afterAll ⟨1, 0⟩ before) (hend : IsEnd s.next.1) :
    s.next.2.next = s.next := by
  obtain ⟨passed, -, hposition, hreads⟩ := next_readsOn s before h
  have hrest := hreads.rest_eq_nil hend
  have hnone : s.next.2.piece? = none := by rw [piece?, hrest]
  rw [next.eq_def s.next.2, hnone]
  obtain ⟨span, hresult⟩ := hend
  rw [hresult] at hreads
  cases hreads with
  | stop =>
    refine Prod.ext ?_ rfl
    rw [hresult, eof, hposition, Position.next_afterAll]
  | token _ ht => exact absurd rfl ht

/-! ## Any number of calls -/

/-- The scanner after some calls, whatever they gave. -/
def afterCalls (source : String) : Nat → Scanner
  | 0 => ofSource source
  | n + 1 => (afterCalls source n).next.2

/-- What the call gives that comes after `n` others. -/
def call (source : String) (n : Nat) : Except LexError Lexeme :=
  (afterCalls source n).next.1

variable (source : String)

/-- After any number of calls the scanner stands behind what is no longer to be read. -/
theorem afterCalls_position (n : Nat) :
    ∃ before, source.toList = before ++ (afterCalls source n).rest ∧
      (afterCalls source n).position = .afterAll ⟨1, 0⟩ before := by
  induction n with
  | zero => exact ⟨[], rfl, rfl⟩
  | succ n ih =>
    obtain ⟨before, hsource, hposition⟩ := ih
    obtain ⟨passed, hrest, hstop, -⟩ := next_readsOn _ _ hposition
    refine ⟨before ++ passed, ?_, hstop⟩
    rw [hsource, hrest, List.append_assoc]
    rfl

variable {source} in
/-- So many calls that did not end have passed at least as many characters. -/
theorem length_rest_add_le {n : Nat} (h : ∀ m < n, ¬ IsEnd (call source m)) :
    (afterCalls source n).rest.length + n ≤ source.length := by
  induction n with
  | zero => exact Nat.le_of_eq String.length_toList
  | succ n ih =>
    have hle := ih fun m hm => h m (Nat.lt_succ_of_lt hm)
    obtain ⟨before, -, hposition⟩ := afterCalls_position source n
    obtain ⟨passed, hrest, -, hreads⟩ := next_readsOn _ _ hposition
    have hpassed := List.length_pos_iff.mpr (hreads.passed_ne_nil (h n (Nat.lt_succ_self n)))
    rw [hrest, List.length_append] at hle
    rw [afterCalls]
    omega

/-- The end is met after at most as many calls as there are characters. -/
theorem exists_isEnd_call : ∃ n ≤ source.length, IsEnd (call source n) := by
  refine Classical.byContradiction fun hnone => ?_
  have hlength : (afterCalls source (source.length + 1)).rest.length + (source.length + 1) ≤
      source.length :=
    length_rest_add_le fun m hm hend => hnone ⟨m, Nat.le_of_lt_succ hm, hend⟩
  omega

variable {source} in
/-- Behind the end every call is the same again. -/
theorem next_afterCalls_of_isEnd {n m : Nat} (h : IsEnd (call source n)) (hle : n ≤ m) :
    (afterCalls source m).next = (afterCalls source n).next := by
  obtain ⟨k, rfl⟩ := Nat.exists_eq_add_of_le hle
  induction k with
  | zero => rfl
  | succ k ih =>
    have hnext := ih (Nat.le_add_right n k)
    obtain ⟨before, -, hposition⟩ := afterCalls_position source (n + k)
    rw [← Nat.add_assoc, afterCalls, next_of_isEnd hposition (by rwa [hnext]), hnext]

/-- Over any number of calls the scanner stands at the line and the column of what it has read; a
call that does not find the end reads something, so that no more other calls come before one that
does than there are characters; from there on nothing changes; and a token, also one behind a flaw,
has the places of its first and last characters. -/
theorem calls_keep_place :
    (∀ n, ∃ before passed, source.toList = before ++ (afterCalls source n).rest ∧
      (afterCalls source n).position =
        ⟨1 + before.count '\n', (before.reverse.takeWhile (· != '\n')).length⟩ ∧
      (afterCalls source n).rest = passed ++ (afterCalls source (n + 1)).rest ∧
      ReadsOn before (afterCalls source (n + 1)).rest passed (call source n) ∧
      (¬ IsEnd (call source n) → passed ≠ [])) ∧
    (∃ n ≤ source.length, IsEnd (call source n)) ∧
    (∀ n, IsEnd (call source n) → ∀ m, n ≤ m →
      call source m = call source n ∧ afterCalls source (m + 1) = afterCalls source (n + 1)) ∧
    ∀ n t span, call source n = .ok ⟨t, span⟩ → t ≠ .eof →
      ∃ front word last rest, source.toList = front ++ word ++ last :: rest ∧
        t.spelling.toList = word ++ [last] ∧
        span = ⟨.behind front, .behind (front ++ word)⟩ := by
  refine ⟨fun n => ?_, exists_isEnd_call source, fun n h m hle => ?_, fun n t span h ht => ?_⟩
  · obtain ⟨before, hsource, hposition⟩ := afterCalls_position source n
    obtain ⟨passed, hrest, -, hreads⟩ := next_readsOn _ _ hposition
    refine ⟨before, passed, hsource, ?_, hrest, hreads, hreads.passed_ne_nil⟩
    rw [hposition, Position.afterAll_start]
  · have hnext := next_afterCalls_of_isEnd h hle
    exact ⟨congrArg Prod.fst hnext, congrArg Prod.snd hnext⟩
  · obtain ⟨before, hsource, hposition⟩ := afterCalls_position source n
    obtain ⟨passed, hrest, -, hreads⟩ := next_readsOn _ _ hposition
    rw [← call, h] at hreads
    rw [hrest] at hsource
    -- a token that is not the end has been spelled out of what was passed
    cases hreads with
    | stop => exact absurd rfl ht
    | @token layout word last _ _ _ hspelling =>
      exact ⟨before ++ layout, word, last, _, by simpa using hsource, hspelling, rfl⟩

/-- Three flaws between two tokens. The line feed that ends the open literal is read with it, so the
second token is in a new line. -/
example :
    (List.range 6).map (fun n => (call "a .. 'b\n #c" n).toOption) =
      [some ⟨.identifier "a", .at ⟨1, 1⟩⟩, none, none, none, some ⟨.identifier "c", .at ⟨2, 3⟩⟩,
        some ⟨.eof, .at ⟨2, 4⟩⟩] := by
  decide +kernel

end Scanner

end FieldShadow
