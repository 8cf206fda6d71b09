import FieldShadow.Proofs.Result
import FieldShadow.Token.Lexer

/-!
# Texts cut into pieces

`Piece.cut` is a whole text as a row of pieces, each with its own text; what a scanner reads are
these pieces with their places (`Scanner.tokens_eq`). Text that is added behind leaves the pieces as
they are, unless the last of them would have taken its first character in (`Piece.cut_append`).

A piece is decided by its first character and by how far the rest of it goes, so the one thing to
know about added text is where a piece may go on (`absorbs`). Pieces in the middle have been ended
by the next one and cannot; the last one can, if the text was cut inside of what it would have been.
-/

namespace FieldShadow

/-- A run stays the same in front of more text unless it reached the end and the text goes on with
what it takes. -/
theorem takeWhile_append_of_head {α : Type} {p : α → Bool} {xs ys : List α}
    (h : (xs.takeWhile p).length = xs.length → ∀ y ∈ ys.head?, p y = false) :
    (xs ++ ys).takeWhile p = xs.takeWhile p := by
  rw [List.takeWhile_append]
  split
  · next hall =>
    have htake : xs.takeWhile p = xs := (List.takeWhile_prefix p).eq_of_length hall
    rw [htake]
    cases ys with
    | nil => simp
    | cons y ys => simp [h hall y rfl]
  · rfl

namespace Piece

/-! ## Pieces in front of more text -/

/-- Whether a comment or an operator that is a slash with the text `x` behind it would take in a
character `d` behind that. -/
def slashAbsorbs (x : List Char) (d : Char) : Bool :=
  match x with
  | '/' :: _ => d != '\n'
  | '*' :: _ => false
  | _ => isOperatorPart d

/-- Whether a piece with the text `x` would take in a character `d` behind it. -/
def absorbs (x : List Char) (d : Char) : Bool :=
  match x with
  | [] => false
  | c :: rest =>
    if Unicode.isWhiteSpace c then false
    else match c with
      | '.' => rest.isEmpty && d == '.'
      | ':' => rest.isEmpty && d == ':'
      | '=' => rest.isEmpty && d == '='
      | '/' => slashAbsorbs rest d
      | c =>
        if isOperatorStart c then isOperatorPart d
        else if c.isDigit then isNumberPart d
        else isIdentifierStart c && isIdentifierPart d

variable {c : Char} {rest more : List Char} {piece : Piece} {n : Nat}

/-- A comment that is closed is closed at the same place whatever follows. -/
theorem blockCommentLength?_append {previous : Char}
    (h : blockCommentLength? previous rest = some n) :
    blockCommentLength? previous (rest ++ more) = some n := by
  induction rest generalizing previous n with
  | nil => simp [blockCommentLength?] at h
  | cons c rest ih =>
    rw [List.cons_append, blockCommentLength?]
    rw [blockCommentLength?] at h
    split at h
    · next hend => rw [if_pos hend, h]
    · next hend =>
      obtain ⟨m, hm, rfl⟩ := Option.map_eq_some_iff.1 h
      rw [if_neg hend, ih hm]
      rfl

theorem quotedLength_append {quote : Char} (h : (quotedLength quote rest).2 = true) :
    quotedLength quote (rest ++ more) = quotedLength quote rest := by
  fun_induction quotedLength quote rest with
  | case1 | case3 | case5 => simp at h
  | case2 rest =>
    rw [List.cons_append, quotedLength.eq_def]
    simp
  | case4 hquote _ after _ _ _ ih => simp_all [quotedLength]
  | case6 c rest hquote hslash hfeed _ _ _ ih =>
    rw [List.cons_append, quotedLength.eq_def]
    simp_all

/-- A run of one kind of characters stays the same in front of what does not go on with it. -/
theorem run_append {part : Char → Bool} {make : String → Token}
    (h : (run part make c rest).2 = rest.length → ∀ d ∈ more.head?, part d = false) :
    run part make c (rest ++ more) = run part make c rest := by
  rw [run, run, takeWhile_append_of_head h]

/-- A literal that was read without a flaw is read again in front of more text. -/
theorem quoted_append {quote : Char} (h : quoted quote rest = (piece, n))
    (hflaw : ∀ f, piece ≠ .flaw f) : quoted quote (rest ++ more) = (piece, n) := by
  cases hclosed : (quotedLength quote rest).2 with
  | false =>
    simp only [quoted, hclosed, Prod.mk.injEq] at h
    exact absurd h.1.symm (hflaw _)
  | true =>
    rw [← h, quoted, quoted, quotedLength_append hclosed]
    simp only [List.take_append_of_le_length (quotedLength_le quote rest)]

/-- A slash without a slash or a star behind it begins an operator. -/
theorem slash_eq_run (h : ∀ d ∈ rest.head?, d ≠ '/' ∧ d ≠ '*') :
    slash rest = run isOperatorPart .operator '/' rest := by
  fun_cases slash rest with
  | case1 | case2 | case3 => simp at h
  | case4 => rfl

/-- What begins with a slash, an operator or a comment, stays the same unless the operator or the
line comment goes on. -/
theorem slash_append (h : slash rest = (piece, n)) (hflaw : ∀ f, piece ≠ .flaw f)
    (hmore : n = rest.length → ∀ d ∈ more.head?, slashAbsorbs rest d = false) :
    slash (rest ++ more) = (piece, n) := by
  fun_cases slash rest with
  | case1 rest =>
    obtain ⟨rfl, rfl⟩ := h
    rw [List.cons_append, slash, takeWhile_append_of_head fun hall d hd => ?_]
    simpa [slashAbsorbs] using hmore (by simp [hall, Nat.add_comm]) d hd
  | case2 rest m hm =>
    rw [List.cons_append, slash]
    simp [slash, hm, blockCommentLength?_append hm] at h ⊢
    exact h
  | case3 rest hm =>
    simp [slash, hm] at h
    exact absurd h.1.symm (hflaw _)
  | case4 _ hslash hstar =>
    have hhead : ∀ d ∈ rest.head?, d ≠ '/' ∧ d ≠ '*' := fun d hd => by
      obtain ⟨ds, rfl⟩ := List.head?_eq_some_iff.1 hd
      exact ⟨fun hd => hslash ds (by rw [hd]), fun hd => hstar ds (by rw [hd])⟩
    have hrun := slash_eq_run hhead
    have habsorbs : ∀ d, slashAbsorbs rest d = isOperatorPart d := by
      unfold slashAbsorbs
      split <;> simp_all
    -- neither of the two characters that open a comment may come behind a lone slash
    have hrun' : slash (rest ++ more) = run isOperatorPart .operator '/' (rest ++ more) :=
      slash_eq_run fun d hd => by
        cases rest with
        | nil =>
          have hpart : isOperatorPart d = false := by
            rw [← habsorbs]
            exact hmore (by rw [hrun] at h; simpa [run] using congrArg Prod.snd h.symm) d hd
          constructor <;> rintro rfl <;> simp [isOperatorPart, isOperatorStart] at hpart
        | cons e rest => exact hhead d hd
    rw [hrun', run_append, ← hrun, h]
    rw [← hrun, h]
    intro hlast d hd
    rw [← habsorbs]
    exact hmore hlast d hd

/-- Dots stay the same unless another dot follows a single one. -/
theorem dots_append (h : dots rest = (piece, n)) (hflaw : ∀ f, piece ≠ .flaw f)
    (hmore : rest = [] → ∀ d ∈ more.head?, d ≠ '.') : dots (rest ++ more) = (piece, n) := by
  rcases rest with _ | ⟨d, _ | ⟨e, rest⟩⟩
  · cases more with
    | nil => exact h
    | cons d more => simpa [dots, hmore rfl d rfl] using h
  · by_cases hd : d = '.'
    · simp only [dots, hd, Prod.mk.injEq] at h
      exact absurd h.1.symm (hflaw _)
    · simpa [dots, hd] using h
  · by_cases hd : d = '.' <;> by_cases he : e = '.' <;> simpa [dots, hd, he] using h

/-- Colons stay the same unless another one follows a single one. -/
theorem colons_append (h : colons rest = (piece, n))
    (hmore : rest = [] → ∀ d ∈ more.head?, d ≠ ':') : colons (rest ++ more) = (piece, n) := by
  cases rest with
  | nil =>
    cases more with
    | nil => exact h
    | cons d more => simpa [colons, hmore rfl d rfl] using h
  | cons d rest => by_cases hd : d = ':' <;> simpa [colons, hd] using h

/-- Equals signs stay the same unless another one follows a single one. -/
theorem equals_append (h : equals rest = (piece, n))
    (hmore : rest = [] → ∀ d ∈ more.head?, d ≠ '=') : equals (rest ++ more) = (piece, n) := by
  cases rest with
  | nil =>
    cases more with
    | nil => exact h
    | cons d more => simpa [equals, hmore rfl d rfl] using h
  | cons d rest => by_cases hd : d = '=' <;> simpa [equals, hd] using h

/-- A piece stays as it is when there is more text behind it, unless it reaches to the end of its
text and takes in the next character. -/
theorem first_append (h : first c rest = (piece, n)) (hflaw : ∀ f, piece ≠ .flaw f)
    (hmore : n = rest.length → ∀ d ∈ more.head?, absorbs (c :: rest) d = false) :
    first c (rest ++ more) = (piece, n) := by
  unfold first at h ⊢
  split at h
  · next hwhite => rw [if_pos hwhite, h]
  · next hwhite =>
    rw [if_neg hwhite]
    simp only [absorbs, if_neg hwhite] at hmore
    split at h
    case h_12 =>
      refine dots_append h hflaw fun hrest d hd hdot => ?_
      subst hrest hdot
      obtain ⟨rfl, rfl⟩ := Prod.mk.inj h
      simpa using hmore rfl _ hd
    case h_13 =>
      refine colons_append h fun hrest d hd hcolon => ?_
      subst hrest hcolon
      obtain ⟨rfl, rfl⟩ := Prod.mk.inj h
      simpa using hmore rfl _ hd
    case h_14 =>
      refine equals_append h fun hrest d hd hequal => ?_
      subst hrest hequal
      obtain ⟨rfl, rfl⟩ := Prod.mk.inj h
      simpa using hmore rfl _ hd
    case h_15 => exact slash_append h hflaw hmore
    case h_16 | h_17 => exact quoted_append h hflaw
    case h_18 =>
      -- what is none of these is an operator, a number, a word or a stray character
      split at h
      · next hstart =>
        rw [if_pos hstart, ← h]
        refine run_append fun hall d hd => ?_
        simpa [hstart] using hmore ((congrArg Prod.snd h).symm.trans hall) d hd
      · next hstart =>
        rw [if_neg hstart]
        split at h
        · next hdigit =>
          rw [if_pos hdigit, ← h]
          refine run_append fun hall d hd => ?_
          simpa [hstart, hdigit] using hmore ((congrArg Prod.snd h).symm.trans hall) d hd
        · next hdigit =>
          rw [if_neg hdigit]
          split at h
          · next hword =>
            rw [if_pos hword, ← h]
            refine run_append fun hall d hd => ?_
            simpa [hstart, hdigit, hword] using hmore ((congrArg Prod.snd h).symm.trans hall) d hd
          · exact absurd (congrArg Prod.fst h).symm (hflaw _)
    all_goals exact h

/-! ## Whole texts -/

/-- A whole text as a row of pieces, each with its own text. -/
def cut : List Char → List (Piece × List Char)
  | [] => []
  | c :: rest =>
    ((first c rest).1, c :: rest.take (first c rest).2) :: cut (rest.drop (first c rest).2)
termination_by text => text.length
decreasing_by
  rw [List.length_drop, List.length_cons]
  exact Nat.lt_succ_of_le (Nat.sub_le _ _)

/-- The text of a row of pieces. -/
def textOf (pieces : List (Piece × List Char)) : List Char :=
  pieces.flatMap Prod.snd

@[simp] theorem textOf_nil : textOf [] = [] :=
  rfl

@[simp] theorem textOf_cons (x : Piece × List Char) (pieces : List (Piece × List Char)) :
    textOf (x :: pieces) = x.2 ++ textOf pieces :=
  rfl

@[simp] theorem textOf_append (pieces others : List (Piece × List Char)) :
    textOf (pieces ++ others) = textOf pieces ++ textOf others :=
  List.flatMap_append

/-- The pieces of a text, put together, are the text: nothing is lost, flaws and spaces included. -/
theorem textOf_cut (text : List Char) : textOf (cut text) = text := by
  fun_induction cut text with
  | case1 => rfl
  | case2 c rest ih => rw [textOf_cons, ih, List.cons_append, List.take_append_drop]

/-- A text without flaws. -/
def Sound (pieces : List (Piece × List Char)) : Prop :=
  ∀ x ∈ pieces, ∀ f, x.1 ≠ .flaw f

/-- A row of pieces is sound if its first piece is no flaw and the rest is sound. -/
theorem sound_cons {x : Piece × List Char} {pieces : List (Piece × List Char)} :
    Sound (x :: pieces) ↔ (∀ f, x.1 ≠ .flaw f) ∧ Sound pieces :=
  List.forall_mem_cons

/-- Two rows behind each other are sound if both are. -/
theorem sound_append {pieces others : List (Piece × List Char)} :
    Sound (pieces ++ others) ↔ Sound pieces ∧ Sound others :=
  List.forall_mem_append

/-- The tokens in a row of pieces, when `p` is the place of the character before it. -/
def written (p : Position) : List (Piece × List Char) → List Lexeme
  | [] => []
  | (.token t, x) :: pieces => ⟨t, ⟨p.next, p.afterAll x⟩⟩ :: written (p.afterAll x) pieces
  | (.blank, x) :: pieces | (.flaw _, x) :: pieces => written (p.afterAll x) pieces

/-- The tokens of two rows behind each other are those of both, the second placed behind the text of
the first. -/
theorem written_append (p : Position) (pieces others : List (Piece × List Char)) :
    written p (pieces ++ others) =
      written p pieces ++ written (p.afterAll (textOf pieces)) others := by
  induction pieces generalizing p with
  | nil => rfl
  | cons x pieces ih =>
    obtain ⟨piece, x⟩ := x
    cases piece <;> simp [written, ih, Position.afterAll_append]

/-- The tokens in a row of pieces without their places. -/
def tokens (pieces : List (Piece × List Char)) : List Token :=
  pieces.filterMap fun x => match x.1 with
    | .token t => some t
    | _ => none

theorem tokens_append (pieces others : List (Piece × List Char)) :
    tokens (pieces ++ others) = tokens pieces ++ tokens others :=
  List.filterMap_append

/-- The tokens that are written at places are those of the row. -/
theorem map_token_written (p : Position) (pieces : List (Piece × List Char)) :
    (written p pieces).map Lexeme.token = tokens pieces := by
  induction pieces generalizing p with
  | nil => rfl
  | cons x pieces ih =>
    obtain ⟨piece, x⟩ := x
    cases piece <;> simp [written, tokens, ih]

end Piece

open Piece

/-- A scanner has no piece only at the end of the text. -/
theorem Scanner.rest_eq_nil_of_piece? {s : Scanner} (h : s.piece? = none) : s.rest = [] := by
  rw [piece?] at h
  split at h
  · assumption
  · cases h

/-- A piece is cut off by its first character, and the scanner goes on behind it, at the place that
the passed characters lead to. -/
theorem Scanner.exists_first_of_piece? {s : Scanner} {piece : Piece} {span : Span}
    {after : Scanner} (h : s.piece? = some (piece, span, after)) :
    ∃ c rest n, s.rest = c :: rest ∧ first c rest = (piece, n) ∧ after.rest = rest.drop n ∧
      span = ⟨s.position.next, after.position⟩ ∧
      after.position = s.position.afterAll (c :: rest.take n) := by
  rw [piece?] at h
  split at h
  · cases h
  · next c rest hrest =>
    obtain ⟨rfl, rfl, rfl⟩ := by simpa using h
    exact ⟨c, rest, _, hrest, rfl, rfl, rfl, rfl⟩

/-- The pieces of a scanner's rest are the piece it gives next and those of the scanner behind it.
-/
theorem Scanner.piece?_eq_some {s : Scanner} {piece : Piece} {span : Span} {after : Scanner}
    (h : s.piece? = some (piece, span, after)) :
    ∃ x, cut s.rest = (piece, x) :: cut after.rest ∧ s.rest = x ++ after.rest ∧
      span = ⟨s.position.next, after.position⟩ ∧ after.position = s.position.afterAll x := by
  obtain ⟨c, rest, n, hrest, hfirst, hafter, hspan, hposition⟩ := exists_first_of_piece? h
  refine ⟨c :: rest.take n, ?_, ?_, hspan, hposition⟩
  · rw [hrest, cut, hfirst, hafter]
  · rw [hrest, hafter, List.cons_append, List.take_append_drop]

/-- A scanner reads the tokens of the pieces that its text is cut into. -/
theorem Scanner.tokens_eq_ok {s : Scanner} {ls : List Lexeme} :
    s.tokens = .ok ls ↔ Sound (cut s.rest) ∧
      ls = written s.position (cut s.rest) ++ [⟨.eof, .at (s.position.afterAll s.rest).next⟩] := by
  fun_induction Scanner.tokens s generalizing ls with
  | case1 s h =>
    have hrest : s.rest = [] := rest_eq_nil_of_piece? h
    simp [hrest, cut, written, Sound, eof, eq_comm]
  | case2 s span after h ih =>
    obtain ⟨x, hcut, hrest, -, hposition⟩ := piece?_eq_some h
    rw [ih, hcut, sound_cons, written, hrest, Position.afterAll_append, hposition]
    simp
  | case3 s t span after h ih =>
    obtain ⟨x, hcut, hrest, hspan, hposition⟩ := piece?_eq_some h
    rw [map_eq_ok, hcut, sound_cons, written, hrest, Position.afterAll_append, hspan, hposition]
    simp [ih, eq_comm, and_assoc, hposition]
  | case4 s f span after h =>
    obtain ⟨x, hcut, -⟩ := piece?_eq_some h
    simp [hcut, Sound]

/-- A text is tokenized exactly when no piece of it is a flaw. The tokens are those of its pieces at
their places, with the end behind the last character. -/
theorem tokenize_eq_ok {source : String} {ls : List Lexeme} :
    tokenize source = .ok ls ↔ Sound (cut source.toList) ∧
      ls = written ⟨1, 0⟩ (cut source.toList) ++
        [⟨.eof, .at (Position.afterAll ⟨1, 0⟩ source.toList).next⟩] :=
  Scanner.tokens_eq_ok

namespace Piece

/-- What is cut off in front stays as it is when there is more text at the end. -/
theorem cut_append_of_cut {text more : List Char} {front : List (Piece × List Char)}
    {x : Piece × List Char} {behind : List (Piece × List Char)}
    (h : cut text = front ++ x :: behind) (hsound : Sound front) :
    cut (text ++ more) = front ++ cut (textOf (x :: behind) ++ more) := by
  induction front generalizing text with
  | nil => rw [List.nil_append, ← textOf_cut text, h, List.nil_append]
  | cons y front ih =>
    cases text with
    | nil =>
      rw [cut] at h
      cases h
    | cons c rest =>
      rw [cut, List.cons_append] at h
      obtain ⟨rfl, hcut⟩ := List.cons.inj h
      obtain ⟨hfirst, hsound⟩ := sound_cons.mp hsound
      -- pieces follow, so this one does not reach the end and cannot grow
      have hlt : (first c rest).2 < rest.length := by
        refine Nat.lt_of_le_of_ne (first_le c rest) fun hall => ?_
        rw [hall, List.drop_length, cut] at hcut
        exact List.cons_ne_nil _ _ (List.append_eq_nil_iff.mp hcut.symm).2
      have happend : first c (rest ++ more) = ((first c rest).1, (first c rest).2) :=
        first_append (by rfl) hfirst fun hall => absurd hall (Nat.ne_of_lt hlt)
      have hle := Nat.le_of_lt hlt
      rw [List.cons_append, cut, happend, List.take_append_of_le_length hle,
        List.drop_append_of_le_length hle, ih hcut hsound]
      rfl

/-- A piece that is cut off at the end of a text is all there is to read there. -/
theorem first_of_cut {text : List Char} {front : List (Piece × List Char)}
    {x : Piece × List Char} (h : cut text = front ++ [x]) (hsound : Sound front) :
    ∃ c rest, x.2 = c :: rest ∧ first c rest = (x.1, rest.length) := by
  -- a sound front is cut off by itself, so the last piece is all that is left
  have hone : cut x.2 = [x] := by
    have happend := @cut_append_of_cut text [] front x [] h hsound
    rw [List.append_nil, h] at happend
    simpa using (List.append_cancel_left happend).symm
  cases htext : x.2 with
  | nil =>
    rw [htext, cut] at hone
    cases hone
  | cons c rest =>
    rw [htext, cut] at hone
    obtain ⟨hx, hrest⟩ := List.cons.inj hone
    -- the piece takes all of its text, or another one would follow
    have hle : rest.length ≤ (first c rest).2 := by
      rw [← List.drop_eq_nil_iff, ← textOf_cut (rest.drop _), hrest]
      rfl
    have hpiece : (first c rest).1 = x.1 := congrArg Prod.fst hx
    exact ⟨c, rest, rfl, Prod.ext hpiece (Nat.le_antisymm (first_le c rest) hle)⟩

/-- The pieces of a text are the first one and those of what is left. -/
theorem cut_of_first {text : List Char} {n : Nat} (h : first c text = (piece, n)) :
    cut (c :: text) = (piece, c :: text.take n) :: cut (text.drop n) := by
  rw [cut, h]

/-- Text behind a sound text is cut as if it stood alone, unless the last piece before it takes in
its first character. -/
theorem cut_append {text more : List Char} (hsound : Sound (cut text))
    (hlast : ∀ x ∈ (cut text).getLast?, ∀ d ∈ more.head?, absorbs x.2 d = false) :
    cut (text ++ more) = cut text ++ cut more := by
  rcases List.eq_nil_or_concat (cut text) with hnil | ⟨front, x, hcut⟩
  · have htext : text = [] := by rw [← textOf_cut text, hnil, textOf_nil]
    rw [htext, cut, List.nil_append, List.nil_append]
  · rw [List.concat_eq_append] at hcut
    rw [hcut] at hsound hlast ⊢
    obtain ⟨hfront, hx⟩ := sound_append.mp hsound
    obtain ⟨c, rest, htext, hfirst⟩ := first_of_cut hcut hfront
    have happend : first c (rest ++ more) = (x.1, rest.length) :=
      first_append hfirst (hx x (by simp)) fun _ d hd => htext ▸ hlast x (by simp) d hd
    have hmore : cut (x.2 ++ more) = x :: cut more := by
      rw [htext, List.cons_append, cut, happend, List.take_left, List.drop_left, ← htext]
    rw [cut_append_of_cut hcut hfront, List.append_assoc]
    simp [hmore]

end Piece

end FieldShadow
