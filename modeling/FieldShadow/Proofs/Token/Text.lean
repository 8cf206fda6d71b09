import FieldShadow.Proofs.Token.Piece

/-!
# The spelling of a token sequence

The tokens that are read from a text spell it: between them stand white space and comments only, and
their places are those of their first and last characters (`tokenize_spells`).

`Spells before text ls` is the specification. It knows nothing of how the scanner goes on from one
character to the next: layout, then the spelling of a token, then the rest, with the span of the
token at the places of its first and its last character. The scanner meets it because each of its
pieces is either layout (`layout_of_first`) or the spelling of its token (`isSpelling_of_first`).
-/

namespace FieldShadow

/-! ## Places -/

/-- The place behind a text, which is that of a character after it. -/
def Position.behind (text : List Char) : Position :=
  ⟨text.count '\n' + 1, (text.reverse.takeWhile (· != '\n')).length + 1⟩

instance : LT Position :=
  ⟨fun p q => p.line < q.line ∨ p.line = q.line ∧ p.column < q.column⟩

instance : LE Position :=
  ⟨fun p q => p.line < q.line ∨ p.line = q.line ∧ p.column ≤ q.column⟩

/-- Places are in order by their lines, on one line by their columns. -/
theorem Position.lt_iff {p q : Position} :
    p < q ↔ p.line < q.line ∨ p.line = q.line ∧ p.column < q.column :=
  Iff.rfl

theorem Position.le_iff {p q : Position} :
    p ≤ q ↔ p.line < q.line ∨ p.line = q.line ∧ p.column ≤ q.column :=
  Iff.rfl

theorem Position.le_trans {p q r : Position} (h : p ≤ q) (h' : q ≤ r) : p ≤ r := by
  rw [le_iff] at *
  omega

theorem Position.lt_of_lt_of_le {p q r : Position} (h : p < q) (h' : q ≤ r) : p < r := by
  rw [lt_iff, le_iff] at *
  omega

theorem Position.le_of_lt {p q : Position} (h : p < q) : p ≤ q := by
  rw [lt_iff, le_iff] at *
  omega

/-- Behind a text that was passed comes the place behind that text. -/
theorem Position.next_afterAll (text : List Char) :
    (Position.afterAll ⟨1, 0⟩ text).next = .behind text := by
  suffices h : ∀ reversed : List Char,
      (Position.afterAll ⟨1, 0⟩ reversed.reverse).next = .behind reversed.reverse by
    simpa using h text.reverse
  intro reversed
  induction reversed with
  | nil => rfl
  | cons c reversed ih =>
    rw [List.reverse_cons, afterAll_append]
    by_cases hc : c = '\n'
    · have := congrArg Position.line ih
      simp [hc, after, next, behind] at this ⊢
      omega
    · simp [hc, after, next, behind] at ih ⊢
      omega

/-- The line counts the line feeds of a text, the column what stands behind the last of them. -/
theorem Position.afterAll_start (text : List Char) :
    Position.afterAll ⟨1, 0⟩ text =
      ⟨1 + text.count '\n', (text.reverse.takeWhile (· != '\n')).length⟩ := by
  have h := next_afterAll text
  rw [next, behind, mk.injEq] at h
  rw [Nat.add_comm 1, ← h.1, ← Nat.add_right_cancel h.2]

/-- The last character of a text stands behind the others. -/
theorem Position.afterAll_concat (text : List Char) {last : Char} (h : last ≠ '\n') :
    Position.afterAll ⟨1, 0⟩ (text ++ [last]) = .behind text := by
  rw [afterAll_append, ← next_afterAll]
  simp [after, h]

/-- One more character leads strictly further, a line feed to the next line. -/
theorem Position.behind_lt_append (text : List Char) (c : Char) :
    Position.behind text < .behind (text ++ [c]) := by
  by_cases hc : c = '\n' <;> simp [behind, lt_iff, hc]

/-- More text never leads back. -/
theorem Position.behind_le_append (text more : List Char) :
    Position.behind text ≤ .behind (text ++ more) := by
  induction more generalizing text with
  | nil => simp [le_iff]
  | cons c more ih =>
    have hmore := ih (text ++ [c])
    rw [List.append_assoc] at hmore
    exact le_trans (le_of_lt (behind_lt_append text c)) hmore

/-! ## White space and comments -/

/-- White space and comments, with the text `behind` after them. A line comment reaches up to the
next line feed or to the end. -/
inductive Layout (behind : List Char) : List Char → Prop
  | nil : Layout behind []
  | white {c : Char} {text : List Char} (hwhite : Unicode.isWhiteSpace c) (h : Layout behind text) :
      Layout behind (c :: text)
  | lineComment {body text : List Char} (hbody : '\n' ∉ body)
      (hend : ∀ c ∈ (text ++ behind).head?, c = '\n') (h : Layout behind text) :
      Layout behind ('/' :: '/' :: (body ++ text))
  | blockComment {body text : List Char} (hbody : ¬ ['*', '/'] <:+: body)
      (h : Layout behind text) : Layout behind ('/' :: '*' :: (body ++ '*' :: '/' :: text))

/-- Whether a text spells some tokens, `eof` last, when the text `before` stands in front of it. -/
inductive Spells : (before text : List Char) → List Lexeme → Prop
  | stop {before text : List Char} (h : Layout [] text) :
      Spells before text [⟨.eof, .at (.behind (before ++ text))⟩]
  | token {before layout word rest : List Char} {last : Char} {t : Token} {ls : List Lexeme}
      (hlayout : Layout (word ++ last :: rest) layout) (ht : t ≠ .eof)
      (hspelling : t.spelling.toList = word ++ [last])
      (h : Spells (before ++ layout ++ word ++ [last]) rest ls) :
      Spells before (layout ++ word ++ last :: rest)
        (⟨t, ⟨.behind (before ++ layout), .behind (before ++ layout ++ word)⟩⟩ :: ls)

/-! ## Pieces -/

namespace Piece

variable {c : Char} {rest : List Char} {t : Token} {n : Nat}

/-- A block comment ends at the first place where it may. -/
theorem blockCommentLength?_eq_some {previous : Char} :
    blockCommentLength? previous rest = some n ↔
      ∃ body more, previous :: rest = body ++ '*' :: '/' :: more ∧ ¬ ['*', '/'] <:+: body ∧
        n = body.length + 1 := by
  induction rest generalizing previous n with
  | nil =>
    refine iff_of_false nofun fun ⟨body, more, h, _⟩ => ?_
    have := congrArg List.length h
    simp only [List.length_append, List.length_cons, List.length_nil] at this
    omega
  | cons c rest ih =>
    rw [blockCommentLength?]
    split
    · next hend =>
      obtain ⟨rfl, rfl⟩ := hend
      constructor
      · intro h
        obtain rfl := Option.some.inj h
        exact ⟨[], rest, rfl, by simp, rfl⟩
      · -- the comment ends here, so a longer body would have its end inside
        rintro ⟨_ | ⟨b, _ | ⟨c, body⟩⟩, more, h, hbody, rfl⟩
        · rfl
        · simp at h
        · obtain ⟨rfl, rfl, -⟩ := by simpa using h
          exact absurd ⟨[], body, rfl⟩ hbody
    · next hend =>
      rw [Option.map_eq_some_iff]
      constructor
      · rintro ⟨m, hm, rfl⟩
        obtain ⟨body, more, h, hbody, rfl⟩ := ih.mp hm
        refine ⟨previous :: body, more, by rw [h, List.cons_append], ?_, rfl⟩
        rw [List.infix_cons_iff]
        rintro (⟨tail, htail⟩ | hinfix)
        · obtain ⟨rfl, rfl⟩ := by simpa using htail
          obtain ⟨rfl, -⟩ := by simpa using h
          exact hend ⟨rfl, rfl⟩
        · exact hbody hinfix
      · rintro ⟨_ | ⟨b, body⟩, more, h, hbody, rfl⟩
        · obtain ⟨rfl, rfl, -⟩ := by simpa using h
          exact absurd ⟨rfl, rfl⟩ hend
        · obtain ⟨rfl, hrest⟩ := by simpa using h
          refine ⟨body.length + 1, ih.mpr ⟨body, more, hrest, ?_, rfl⟩, rfl⟩
          exact fun hinfix => hbody (List.infix_cons hinfix)

/-- A word is spelled as it was read, a keyword as well as a name. -/
theorem ofWord_spelling (word : String) :
    Token.ofWord word ≠ .eof ∧ (Token.ofWord word).spelling = word := by
  have hall : ∀ e ∈ Token.reservedWords, e.2 ≠ .eof ∧ e.2.spelling = e.1 := by decide
  rw [Token.ofWord]
  cases h : Token.reservedWords.lookup word with
  | none => exact ⟨nofun, rfl⟩
  | some t =>
    obtain ⟨before, behind, hwords, -⟩ := List.lookup_eq_some_iff.mp h
    exact hall (word, t) (by simp [hwords])

/-! ## Tokens and their texts -/

/-- Whether a text spells a token and does not end in a line feed. -/
def IsSpelling (t : Token) (x : List Char) : Prop :=
  t ≠ .eof ∧ t.spelling.toList = x ∧ ∃ word last, x = word ++ [last] ∧ last ≠ '\n'

/-- A sign of one character is its own spelling. -/
theorem isSpelling_mark (ht : t ≠ .eof) (hspelling : t.spelling.toList = [c]) (hc : c ≠ '\n') :
    IsSpelling t [c] :=
  ⟨ht, hspelling, [], c, rfl, hc⟩

/-- A run of characters is the spelling of the token that is made of it, and is on one line. -/
theorem isSpelling_of_run {part : Char → Bool} {make : String → Token}
    (hmake : ∀ word, make word ≠ .eof ∧ (make word).spelling = word)
    (hpart : part '\n' = false) (hc : c ≠ '\n') (h : run part make c rest = (.token t, n)) :
    IsSpelling t (c :: rest.take n) := by
  obtain ⟨ht, hn⟩ := Prod.mk.inj h
  obtain rfl := Piece.token.inj ht
  have htake : rest.take n = rest.takeWhile part := by
    rw [← hn]
    exact (List.prefix_iff_eq_take.mp (List.takeWhile_prefix part)).symm
  rw [htake]
  refine ⟨(hmake _).1, by rw [(hmake _).2, String.toList_ofList], ?_⟩
  rcases List.eq_nil_or_concat (rest.takeWhile part) with hnil | ⟨word, last, hword⟩
  · exact ⟨[], c, by rw [hnil]; rfl, hc⟩
  · refine ⟨c :: word, last, by rw [hword, List.concat_eq_append]; rfl, ?_⟩
    rintro rfl
    have hall := List.all_takeWhile (p := part) (l := rest)
    simp [hword, hpart] at hall

/-- What a literal takes up ends with its quote, if it is closed. -/
theorem take_quotedLength {quote : Char} (h : (quotedLength quote rest).2 = true) :
    ∃ word, rest.take (quotedLength quote rest).1 = word ++ [quote] := by
  fun_induction quotedLength quote rest with
  | case1 | case3 | case5 => simp at h
  | case2 rest => exact ⟨[], by simp⟩
  | case4 d after m closed hlength _ ih =>
    obtain ⟨word, hword⟩ := ih (by rw [hlength]; exact h)
    rw [hlength] at hword
    exact ⟨'\\' :: d :: word, by rw [List.take_succ_cons, List.take_succ_cons, hword]; rfl⟩
  | case6 d rest _ _ _ m closed hlength ih =>
    obtain ⟨word, hword⟩ := ih (by rw [hlength]; exact h)
    rw [hlength] at hword
    exact ⟨d :: word, by rw [List.take_succ_cons, hword]; rfl⟩

/-- A closed literal is its own spelling, over several lines if line feeds are escaped. -/
theorem isSpelling_of_quoted {quote : Char} (hquote : quote ≠ '\n')
    (h : quoted quote rest = (.token t, n)) : IsSpelling t (quote :: rest.take n) := by
  rw [quoted] at h
  obtain ⟨ht, rfl⟩ := Prod.mk.inj h
  split at ht
  · next hclosed =>
    obtain rfl := Piece.token.inj ht
    obtain ⟨word, hword⟩ := take_quotedLength hclosed
    exact ⟨by simp, String.toList_ofList, quote :: word, quote, by rw [hword]; rfl, hquote⟩
  · cases ht

/-- An operator is spelled as it was read. -/
theorem operator_spelling (word : String) :
    Token.operator word ≠ .eof ∧ (Token.operator word).spelling = word :=
  ⟨nofun, rfl⟩

theorem literal_spelling (word : String) :
    Token.literal word ≠ .eof ∧ (Token.literal word).spelling = word :=
  ⟨nofun, rfl⟩

/-- A token is read from its own spelling. -/
theorem isSpelling_of_first (h : first c rest = (.token t, n)) :
    IsSpelling t (c :: rest.take n) := by
  unfold first at h
  split at h
  · cases h
  · next hwhite =>
    -- a line feed is white, so no token begins with one
    have hc : c ≠ '\n' := by
      rintro rfl
      exact hwhite (by decide)
    split at h
    case h_12 =>
      unfold dots at h
      split at h
      · cases h
        exact ⟨nofun, rfl, ['.', '.'], '.', rfl, hc⟩
      · cases h
      · cases h
        exact isSpelling_mark nofun rfl hc
    case h_13 | h_14 =>
      first | unfold colons at h | unfold equals at h
      split at h
      · cases h
        exact ⟨nofun, rfl, [_], _, rfl, hc⟩
      · cases h
        exact isSpelling_mark nofun rfl hc
    case h_15 =>
      unfold slash at h
      split at h
      · cases h
      · split at h <;> cases h
      · exact isSpelling_of_run operator_spelling (by decide) hc h
    case h_16 | h_17 => exact isSpelling_of_quoted hc h
    case h_18 =>
      split at h
      · exact isSpelling_of_run operator_spelling (by decide) hc h
      · split at h
        · exact isSpelling_of_run literal_spelling (by decide) hc h
        · split at h
          · exact isSpelling_of_run ofWord_spelling (by decide) hc h
          · cases h
    all_goals
      cases h
      exact isSpelling_mark nofun rfl hc

/-- A text is cut at its first line feed, which is where a line comment ends. -/
theorem exists_line (rest : List Char) :
    ∃ body tail, rest = body ++ tail ∧ rest.takeWhile (· != '\n') = body ∧ '\n' ∉ body ∧
      ∀ d ∈ tail.head?, d = '\n' := by
  refine ⟨_, rest.dropWhile (· != '\n'), List.takeWhile_append_dropWhile.symm, rfl, ?_, ?_⟩
  · intro hmem
    have hall := List.all_takeWhile (p := (· != '\n')) (l := rest)
    simpa using List.all_eq_true.mp hall _ hmem
  · intro d hd
    have hhead := List.head?_dropWhile_not (· != '\n') rest
    rw [Option.mem_def.mp hd] at hhead
    simpa using hhead

/-- White space or a comment in front of more of it. -/
theorem layout_of_first {behind text : List Char} (h : first c rest = (.blank, n))
    (hrest : rest.drop n = text ++ behind) (htext : Layout behind text) :
    Layout behind (c :: rest.take n ++ text) := by
  unfold first at h
  split at h
  · next hwhite =>
    cases h
    exact .white hwhite htext
  · split at h
    case h_12 =>
      unfold dots at h
      split at h <;> cases h
    case h_13 =>
      unfold colons at h
      split at h <;> cases h
    case h_14 =>
      unfold equals at h
      split at h <;> cases h
    case h_15 =>
      unfold slash at h
      split at h
      · -- two slashes: a comment up to the end of the line
        next rest =>
        cases h
        obtain ⟨body, tail, rfl, hline, hbody, hend⟩ := exists_line rest
        rw [hline] at hrest ⊢
        obtain rfl : tail = text ++ behind := by simpa [Nat.add_comm 1] using hrest
        simpa [Nat.add_comm 1] using Layout.lineComment hbody hend htext
      · split at h
        · -- a slash and a star: a comment up to where it is closed
          next rest m hm =>
          cases h
          obtain ⟨_ | ⟨b, body⟩, more, hcomment, hbody, rfl⟩ := blockCommentLength?_eq_some.mp hm
          · cases hcomment
          · obtain ⟨rfl, htail⟩ := List.cons.inj hcomment
            rw [htail] at hrest ⊢
            have hsplit : '*' :: body.append ('*' :: '/' :: more) =
                ('*' :: body ++ ['*', '/']) ++ more := by simp
            have hlength : 1 + (('\x00' :: body).length + 1) =
                ('*' :: body ++ ['*', '/']).length := by simp +arith
            rw [hsplit, hlength, List.drop_left] at hrest
            rw [hsplit, hlength, List.take_left]
            -- the body is closed once, at its end
            have hbody : ¬ ['*', '/'] <:+: body := fun hinfix => hbody (List.infix_cons hinfix)
            simpa using Layout.blockComment hbody htext
        · cases h
      · cases h
    case h_16 | h_17 =>
      rw [quoted] at h
      have h := congrArg Prod.fst h
      dsimp only at h
      split at h <;> cases h
    case h_18 =>
      split at h
      · cases h
      · split at h
        · cases h
        · split at h <;> cases h
    all_goals cases h

end Piece

open Piece

/-! ## Whole texts -/

/-- Layout in front of a text that spells some tokens. -/
theorem Spells.layout_append {before x text : List Char} {ls : List Lexeme}
    (h : Spells (before ++ x) text ls)
    (hx : ∀ {layout behind}, text = layout ++ behind → Layout behind layout →
      Layout behind (x ++ layout)) : Spells before (x ++ text) ls := by
  cases h with
  | stop hlayout =>
    rw [List.append_assoc]
    exact .stop (hx (by simp) hlayout)
  | @token _ layout word rest last t ls hlayout ht hspelling hrest =>
    have hlayout := hx (by simp) hlayout
    have hspells := @Spells.token before _ word rest last t ls hlayout ht hspelling
      (by simpa using hrest)
    simpa using hspells

/-- The tokens of the pieces of a sound text spell the text. Induction on the pieces, each of which
is white space, a comment, a token, or the last of the three. -/
theorem spells_written {text : List Char} (before : List Char) (h : Sound (cut text)) :
    Spells before text (written (Position.afterAll ⟨1, 0⟩ before) (cut text) ++
      [⟨.eof, .at (Position.afterAll ⟨1, 0⟩ (before ++ text)).next⟩]) := by
  fun_induction cut text generalizing before with
  | case1 =>
    rw [Position.next_afterAll]
    exact .stop .nil
  | case2 c rest ih =>
    obtain ⟨hflaw, hsound⟩ := sound_cons.mp h
    have hrest := ih (before ++ c :: rest.take (first c rest).2) hsound
    rw [List.append_assoc, List.cons_append, List.take_append_drop] at hrest
    cases hfirst : first c rest with
    | mk piece n =>
    rw [hfirst] at hflaw hrest
    dsimp only at hflaw hrest ⊢
    have hcons : c :: rest = c :: rest.take n ++ rest.drop n := by simp
    -- blanks join the layout in front of the next token, and a flaw is excluded
    cases piece with
    | flaw f => exact absurd rfl (hflaw f)
    | blank =>
      rw [written, ← Position.afterAll_append]
      have := Spells.layout_append hrest fun hdrop hlayout => layout_of_first hfirst hdrop hlayout
      rwa [← hcons] at this
    | token t =>
      obtain ⟨ht, hspelling, word, last, hword, hlast⟩ := isSpelling_of_first hfirst
      rw [hword] at hcons hspelling
      rw [hword, hcons] at hrest
      have hstop : Position.afterAll ⟨1, 0⟩ (before ++ (word ++ [last])) =
          .behind (before ++ word) := by
        rw [← List.append_assoc, Position.afterAll_concat _ hlast]
      have hspells := @Spells.token before [] word _ last t _ .nil ht hspelling
        (by simpa using hrest)
      simp only [List.append_nil, List.nil_append] at hspells
      rw [← hstop, ← Position.next_afterAll before] at hspells
      rw [written, ← Position.afterAll_append, hword, hcons]
      simpa using hspells

/-- No token starts in front of the text that is spelled. -/
theorem Spells.le_start {before text : List Char} {ls : List Lexeme} (h : Spells before text ls) :
    ∀ l ∈ ls, Position.behind before ≤ l.span.start := by
  induction h with
  | @stop before text h => simpa [Span.at] using Position.behind_le_append before text
  | @token before layout word rest last t ls hlayout ht hspelling h ih =>
    have hle := Position.behind_le_append before layout
    refine List.forall_mem_cons.mpr ⟨hle, fun l hl => ?_⟩
    have hle := Position.behind_le_append before (layout ++ word ++ [last])
    rw [← List.append_assoc, ← List.append_assoc] at hle
    exact Position.le_trans hle (ih l hl)

/-- No token ends before it starts. -/
theorem Spells.start_le_stop {before text : List Char} {ls : List Lexeme}
    (h : Spells before text ls) : ∀ l ∈ ls, l.span.start ≤ l.span.stop := by
  induction h with
  | stop => simp [Span.at, Position.le_iff]
  | token _ _ _ _ ih =>
    exact List.forall_mem_cons.mpr ⟨Position.behind_le_append _ _, ih⟩

/-- Each token ends strictly before the next one starts. -/
theorem Spells.pairwise {before text : List Char} {ls : List Lexeme} (h : Spells before text ls) :
    ls.Pairwise fun l l' => l.span.stop < l'.span.start := by
  induction h with
  | stop => exact List.pairwise_singleton _ _
  | token _ _ _ h ih =>
    refine List.pairwise_cons.mpr ⟨fun l hl => ?_, ih⟩
    exact Position.lt_of_lt_of_le (Position.behind_lt_append _ _) (h.le_start l hl)

/-- What a text is tokenized to spells it. -/
theorem spells_of_tokenize {source : String} {ls : List Lexeme} (h : tokenize source = .ok ls) :
    Spells [] source.toList ls := by
  obtain ⟨hsound, rfl⟩ := tokenize_eq_ok.mp h
  exact spells_written [] hsound

/-- The tokens of a text spell it; their places come one behind the other. -/
theorem tokenize_spells {source : String} {ls : List Lexeme} (h : tokenize source = .ok ls) :
    Spells [] source.toList ls ∧ (∀ l ∈ ls, l.span.start ≤ l.span.stop) ∧
      ls.Pairwise fun l l' => l.span.stop < l'.span.start := by
  obtain ⟨hsound, rfl⟩ := tokenize_eq_ok.mp h
  have hspells := spells_written [] hsound
  exact ⟨hspells, hspells.start_le_stop, hspells.pairwise⟩

/-- The tokens of a text begin and end one behind the other. -/
theorem pairwise_span {source : String} {ls : List Lexeme} (h : tokenize source = .ok ls) :
    ls.Pairwise fun l l' => l.span.start < l'.span.start ∧ l.span.stop < l'.span.stop := by
  have hspells := spells_of_tokenize h
  refine hspells.pairwise.imp_of_mem fun {l l'} hl hl' hlt => ?_
  have hle := hspells.start_le_stop l hl
  have hle' := hspells.start_le_stop l' hl'
  rw [Position.lt_iff] at hlt
  rw [Position.le_iff] at hle hle'
  rw [Position.lt_iff, Position.lt_iff]
  omega

/-- A text with a comment of each form. -/
def commentedSource : String :=
  "int a /* b */\n  = 'c'; // d"

/-- The tokens of `commentedSource`. -/
def commentedTokens : List Lexeme :=
  [⟨.identifier "int", ⟨⟨1, 1⟩, ⟨1, 3⟩⟩⟩, ⟨.identifier "a", .at ⟨1, 5⟩⟩, ⟨.equal, .at ⟨2, 3⟩⟩,
    ⟨.literal "'c'", ⟨⟨2, 5⟩, ⟨2, 7⟩⟩⟩, ⟨.semicolon, .at ⟨2, 8⟩⟩, ⟨.eof, .at ⟨2, 14⟩⟩]

/-- The text with comments is spelled by its tokens, their places in order. -/
theorem spells_commentedSource :
    tokenize commentedSource = .ok commentedTokens ∧
      Spells [] commentedSource.toList commentedTokens ∧
      (∀ l ∈ commentedTokens, l.span.start ≤ l.span.stop) ∧
      commentedTokens.Pairwise fun l l' => l.span.stop < l'.span.start :=
  have h : tokenize commentedSource = .ok commentedTokens :=
    eq_ok_of_toOption (by decide +kernel)
  ⟨h, tokenize_spells h⟩

end FieldShadow
