import FieldShadow.Proofs.Token.Text

/-!
# Comments between tokens

A comment behind a sound text leaves the tokens as they are, unless the text ends in an operator
that its opening slash goes on with (`tokens_comment_iff`).

Texts are cut into pieces (`Piece.cut`), and text that is added behind changes none of them unless
the last one takes its first character in. Which pieces take in a slash is worked out case by case
(`absorbs_slash`): those that are operators, and no others. A slash itself is the odd one, as two of
them are a comment; hence the texts that end in one are left out.
-/

namespace FieldShadow

namespace Piece

/-- Whether a piece is an operator that goes on with every operator character behind it. -/
def isOpenOperator : Piece → Bool
  | .token (.operator op) => op.toList.head?.any fun c => isOperatorStart c || c == '/'
  | _ => false

variable {c : Char} {rest more : List Char} {piece : Piece} {n : Nat}

/-- A character that no token goes on with is taken in by line comments only. -/
theorem absorbs_eq_false {x : List Char} {d : Char} (hline : d = '\n' ∨ ¬ ['/', '/'] <+: x)
    (hdot : d ≠ '.') (hcolon : d ≠ ':') (hequal : d ≠ '=') (hoperator : isOperatorPart d = false)
    (hnumber : isNumberPart d = false) (hword : isIdentifierPart d = false) :
    absorbs x d = false := by
  unfold absorbs
  split
  · rfl
  · split
    · rfl
    · split
      · simp [hdot]
      · simp [hcolon]
      · simp [hequal]
      · unfold slashAbsorbs
        split
        · simpa using hline
        · rfl
        · exact hoperator
      · simp [hoperator, hnumber, hword]

/-- A line feed is taken into nothing; a line comment ends in front of it. -/
theorem absorbs_lineFeed (x : List Char) : absorbs x '\n' = false :=
  absorbs_eq_false (.inl rfl) (by decide) (by decide) (by decide) (by decide) (by decide)
    (by decide)

/-- A space is taken into nothing but a line comment. -/
theorem absorbs_space {x : List Char} (h : ¬ ['/', '/'] <+: x) : absorbs x ' ' = false :=
  absorbs_eq_false (.inr h) (by decide) (by decide) (by decide) (by decide) (by decide)
    (by decide)

/-- A word is no operator that could go on. -/
theorem isOpenOperator_ofWord (c : Char) (word : List Char)
    (hc : ¬ (isOperatorStart c || c == '/')) :
    isOpenOperator (.token (.ofWord (String.ofList (c :: word)))) = false := by
  have hspelling := (ofWord_spelling (String.ofList (c :: word))).2
  unfold isOpenOperator
  split
  · next op hpiece =>
    rw [Piece.token.inj hpiece] at hspelling
    obtain rfl : op = _ := hspelling
    simpa using hc
  · rfl

/-- What could go on is an operator. -/
theorem exists_of_isOpenOperator (h : isOpenOperator piece) :
    ∃ op, piece = .token (.operator op) := by
  unfold isOpenOperator at h
  split at h
  · next op => exact ⟨op, rfl⟩
  · cases h

/-- Outside of line comments a slash is taken into open operators and nothing else, which is where
comments get lost. -/
theorem absorbs_slash (h : first c rest = (piece, rest.length))
    (hline : ¬ ['/', '/'] <+: c :: rest) :
    absorbs (c :: rest) '/' = isOpenOperator piece := by
  unfold first at h
  split at h
  · next hwhite =>
    obtain ⟨rfl, -⟩ := Prod.mk.inj h
    simp [absorbs, hwhite, isOpenOperator]
  · next hwhite =>
    split at h
    case h_12 =>
      unfold dots at h
      split at h <;> obtain ⟨rfl, -⟩ := Prod.mk.inj h <;> simp [absorbs, isOpenOperator]
    case h_13 =>
      unfold colons at h
      split at h <;> obtain ⟨rfl, -⟩ := Prod.mk.inj h <;> simp [absorbs, isOpenOperator]
      decide
    case h_14 =>
      unfold equals at h
      split at h <;> obtain ⟨rfl, -⟩ := Prod.mk.inj h <;> simp [absorbs, isOpenOperator]
      decide
    -- a slash of its own absorbs another one unless that makes a comment
    case h_15 =>
      unfold slash at h
      split at h
      · simp at hline
      · split at h <;> obtain ⟨rfl, -⟩ := Prod.mk.inj h <;>
          simp [absorbs, slashAbsorbs, isOpenOperator, hwhite]
      · obtain ⟨rfl, -⟩ := Prod.mk.inj h
        have habsorbs : slashAbsorbs rest '/' = isOperatorPart '/' := by
          unfold slashAbsorbs
          split <;> simp_all
        simp [absorbs, habsorbs, isOpenOperator, hwhite]
        decide
    case h_16 | h_17 =>
      rw [quoted] at h
      obtain ⟨rfl, -⟩ := Prod.mk.inj h
      split <;> simp [absorbs, hwhite, isOpenOperator] <;> decide
    case h_18 =>
      have hslash : isOperatorPart '/' ∧ isNumberPart '/' = false ∧
          isIdentifierPart '/' = false := by
        decide
      simp only [absorbs, if_neg hwhite, hslash]
      split at h
      · next hstart =>
        obtain ⟨rfl, -⟩ := Prod.mk.inj h
        simp [hstart, isOpenOperator]
      · next hstart =>
        split at h
        · obtain ⟨rfl, -⟩ := Prod.mk.inj h
          simp [hstart, isOpenOperator]
        · split at h
          · obtain ⟨rfl, -⟩ := Prod.mk.inj h
            have hc : c ≠ '/' := ‹_›
            rw [isOpenOperator_ofWord c _ (by simp [hstart, hc])]
            simp [hstart]
          · obtain ⟨rfl, -⟩ := Prod.mk.inj h
            simp [hstart, isOpenOperator]
    -- a mark that is one character is all of the text, and takes nothing more
    all_goals
      obtain rfl : rest = [] := by simpa using (congrArg Prod.snd h).symm
      cases h
      decide

/-- An operator is a run of operator characters. -/
theorem first_of_isOperatorStart (h : isOperatorStart c) (rest : List Char) :
    first c rest = run isOperatorPart .operator c rest := by
  simp only [isOperatorStart, List.contains_cons, List.contains_nil, Bool.or_false,
    Bool.or_eq_true, beq_iff_eq] at h
  rcases h with rfl | rfl | rfl | rfl | rfl | rfl | rfl | rfl | rfl | rfl <;> rfl

/-- An open operator that does not end with a slash is such a run, alone and in front of more text.
-/
theorem run_of_isOpenOperator (h : first c rest = (piece, rest.length))
    (hopen : isOpenOperator piece) (hslash : (c :: rest).getLast? ≠ some '/') :
    first c rest = run isOperatorPart .operator c rest ∧
      first c (rest ++ more) = run isOperatorPart .operator c (rest ++ more) := by
  unfold isOpenOperator at hopen
  split at hopen
  · next op =>
    obtain ⟨-, hspelling, -⟩ := isSpelling_of_first h
    have hspelling : op.toList = c :: rest.take rest.length := hspelling
    rw [hspelling] at hopen
    by_cases hstart : isOperatorStart c
    · exact ⟨first_of_isOperatorStart hstart rest, first_of_isOperatorStart hstart _⟩
    · obtain rfl : c = '/' := by simpa [hstart] using hopen
      cases rest with
      | nil => simp at hslash
      | cons d rest =>
        -- a slash is read as an operator only where no comment begins
        have hhead : d ≠ '/' ∧ d ≠ '*' := by
          constructor
          · rintro rfl
            cases h
          · rintro rfl
            have h : slash ('*' :: rest) = (.token (.operator op), _) := h
            rw [slash] at h
            split at h <;> cases h
        exact ⟨slash_eq_run (by simpa using hhead), slash_eq_run (by simpa using hhead)⟩
  · cases hopen

/-- An operator that a slash goes on becomes another one. -/
theorem first_of_isOpenOperator (h : first c rest = (piece, rest.length))
    (hopen : isOpenOperator piece) (hslash : (c :: rest).getLast? ≠ some '/')
    (more : List Char) :
    ∃ op n, first c (rest ++ '/' :: more) = (.token (.operator op), n) ∧
      piece ≠ .token (.operator op) := by
  obtain ⟨hrun, happend⟩ := run_of_isOpenOperator h hopen hslash
  refine ⟨_, _, happend, ?_⟩
  rw [h] at hrun
  have hall : (rest.takeWhile isOperatorPart).length = rest.length := (congrArg Prod.snd hrun).symm
  have hpiece : piece = .token (.operator (.ofList (c :: rest.takeWhile isOperatorPart))) :=
    congrArg Prod.fst hrun
  rw [hpiece, List.takeWhile_append, if_pos hall]
  intro heq
  have hlength := congrArg String.length (Token.operator.inj (Piece.token.inj heq))
  simp [hall, isOperatorPart] at hlength

/-! ## Comments as pieces -/

/-- White space is a piece of its own. -/
theorem cut_white (hc : Unicode.isWhiteSpace c) (text : List Char) :
    cut (c :: text) = (.blank, [c]) :: cut text :=
  cut_of_first (if_pos hc)

/-- A closed comment is one blank piece, whatever follows it. -/
theorem cut_blockComment {body text : List Char} (hbody : ¬ ['*', '/'] <:+: body) :
    cut ('/' :: '*' :: (body ++ '*' :: '/' :: text)) =
      (.blank, '/' :: '*' :: (body ++ ['*', '/'])) :: cut text := by
  have hlength : blockCommentLength? '\x00' (body ++ '*' :: '/' :: text) =
      some (body ++ ['*', '/']).length := by
    refine blockCommentLength?_eq_some.mpr ⟨'\x00' :: body, text, rfl, ?_, by simp⟩
    rw [List.infix_cons_iff]
    rintro (hstart | hinfix)
    · simp at hstart
    · exact hbody hinfix
  have hfirst : first '/' ('*' :: (body ++ '*' :: '/' :: text)) =
      (.blank, (body ++ ['*', '/']).length + 1) := by
    have hslash : slash ('*' :: (body ++ '*' :: '/' :: text)) =
        (.blank, 1 + (body ++ ['*', '/']).length) := by rw [slash, hlength]
    rw [Nat.add_comm, ← hslash]
    rfl
  have hsplit : body ++ '*' :: '/' :: text = (body ++ ['*', '/']) ++ text := by simp
  rw [cut_of_first hfirst, List.take_succ_cons, List.drop_succ_cons, hsplit, List.take_left,
    List.drop_left]

/-- A line comment is one blank piece up to the line feed or the end. -/
theorem cut_lineComment {body text : List Char} (hbody : '\n' ∉ body)
    (htext : ∀ d ∈ text.head?, d = '\n') :
    cut ('/' :: '/' :: (body ++ text)) = (.blank, '/' :: '/' :: body) :: cut text := by
  have hline : (body ++ text).takeWhile (· != '\n') = body := by
    have hall : ∀ d ∈ body, (d != '\n') = true := by
      intro d hd
      refine bne_iff_ne.mpr fun hfeed => hbody ?_
      rwa [← hfeed]
    rw [List.takeWhile_append_of_pos hall]
    cases text with
    | nil => simp
    | cons d text => simp [htext d rfl]
  have hfirst : first '/' ('/' :: (body ++ text)) = (.blank, body.length + 1) := by
    have hslash : slash ('/' :: (body ++ text)) = (.blank, 1 + body.length) := by rw [slash, hline]
    rw [Nat.add_comm, ← hslash]
    rfl
  rw [cut_of_first hfirst, List.take_succ_cons, List.drop_succ_cons, List.take_left,
    List.drop_left]

end Piece

open Piece

/-- Whether a text ends in an operator that goes on with every operator character behind it. -/
def endsInOperator (text : List Char) : Bool :=
  (cut text).getLast?.any fun x => isOpenOperator x.1

/-- Whether a text ends in a line comment. -/
def endsInLineComment (text : List Char) : Bool :=
  (cut text).getLast?.any fun x => ['/', '/'].isPrefixOf x.2

section

variable {text blank comment : List Char} (hsound : Sound (cut text))
include hsound

/-- A comment behind a text that ends in no operator and no line comment leaves its pieces as they
are. -/
theorem cut_append_comment (hline : endsInLineComment text = false)
    (hcomment : comment.head? = some '/') (hopen : endsInOperator text = false) :
    cut (text ++ comment) = cut text ++ cut comment := by
  refine cut_append hsound fun x hx d hd => ?_
  obtain rfl : '/' = d := by simpa [hcomment] using hd
  obtain ⟨front, hcut⟩ := List.getLast?_eq_some_iff.mp hx
  obtain ⟨hfront, -⟩ := sound_append.mp (hcut ▸ hsound)
  obtain ⟨c, rest, htext, hfirst⟩ := first_of_cut hcut hfront
  have hline : ¬ ['/', '/'] <+: c :: rest := by
    rw [endsInLineComment, hcut, List.getLast?_concat, Option.any_some, htext] at hline
    rw [← List.isPrefixOf_iff_prefix, hline]
    exact Bool.false_ne_true
  have hopen : isOpenOperator x.1 = false := by simpa [endsInOperator, hcut] using hopen
  rw [htext, absorbs_slash hfirst hline, hopen]

/-- Behind an open operator the slash of a comment goes into the operator, so the tokens are others.
-/
theorem tokens_ne_of_endsInOperator (hslash : text.getLast? ≠ some '/')
    (hcomment : comment.head? = some '/') (hopen : endsInOperator text) (others : List Token) :
    tokens (cut (text ++ comment)) ≠ tokens (cut text) ++ others := by
  obtain ⟨x, hx, hopen⟩ := (Option.any_eq_true _ _).mp hopen
  obtain ⟨front, hcut⟩ := List.getLast?_eq_some_iff.mp hx
  obtain ⟨hfront, -⟩ := sound_append.mp (hcut ▸ hsound)
  obtain ⟨c, rest, htext, hfirst⟩ := first_of_cut hcut hfront
  obtain ⟨more, rfl⟩ := List.head?_eq_some_iff.mp hcomment
  have hslash : (c :: rest).getLast? ≠ some '/' := by
    rw [← textOf_cut text, hcut] at hslash
    simpa [htext] using hslash
  obtain ⟨op, n, hfirst', hne⟩ := first_of_isOpenOperator hfirst hopen hslash more
  -- up to this operator the tokens are those of the text alone
  rw [cut_append_of_cut hcut hfront, hcut, tokens_append, tokens_append, List.append_assoc,
    textOf_cons, textOf_nil, List.append_nil, htext, List.cons_append, cut_of_first hfirst']
  intro htokens
  obtain ⟨op', hop'⟩ := exists_of_isOpenOperator hopen
  have htokens := List.append_cancel_left htokens
  simp only [tokens, hop', List.filterMap_cons, List.filterMap_nil, List.cons_append,
    List.nil_append, List.cons.injEq] at htokens
  exact hne (by rw [hop', htokens.1])

end

/-- The tokens of a text in terms of its pieces, without places. -/
theorem exists_tokenize_eq_ok_iff {source : String} {ts : List Token} :
    (∃ ls, tokenize source = .ok ls ∧ ls.map Lexeme.token = ts ++ [.eof]) ↔
      Sound (cut source.toList) ∧ tokens (cut source.toList) = ts := by
  constructor
  · rintro ⟨ls, h, hls⟩
    obtain ⟨hsound, rfl⟩ := tokenize_eq_ok.mp h
    rw [List.map_append, map_token_written] at hls
    exact ⟨hsound, List.append_cancel_right hls⟩
  · rintro ⟨hsound, rfl⟩
    refine ⟨_, tokenize_eq_ok.mpr ⟨hsound, rfl⟩, ?_⟩
    rw [List.map_append, map_token_written]
    rfl

/-- A comment behind a sound text leaves the same tokens as white space in its place, unless it
becomes part of an operator there. -/
theorem tokenize_append_comment_iff {text blank comment : List Char} {plain commented : String}
    {ls : List Lexeme} (hsound : Sound (cut text)) (hslash : text.getLast? ≠ some '/')
    (hline : endsInLineComment text = false)
    (hblank : ∀ x ∈ (cut text).getLast?, ∀ d ∈ blank.head?, absorbs x.2 d = false)
    (hcomment : comment.head? = some '/')
    (hsame : Sound (cut blank) → Sound (cut comment) ∧ tokens (cut comment) = tokens (cut blank))
    (hplain : plain.toList = text ++ blank) (hcommented : commented.toList = text ++ comment)
    (h : tokenize plain = .ok ls) :
    (∃ ls', tokenize commented = .ok ls' ∧ ls'.map Lexeme.token = ls.map Lexeme.token) ↔
      endsInOperator text = false := by
  obtain ⟨hall, rfl⟩ := tokenize_eq_ok.mp h
  rw [hplain, cut_append hsound hblank] at hall
  rw [hplain, List.map_append, map_token_written, cut_append hsound hblank, tokens_append]
  refine exists_tokenize_eq_ok_iff.trans ?_
  rw [hcommented]
  constructor
  · rintro ⟨-, htokens⟩
    rw [Bool.eq_false_iff]
    -- an operator takes the comment's slash, and then its text is no longer the same token
    exact fun hopen => tokens_ne_of_endsInOperator hsound hslash hcomment hopen _ htokens
  · intro hopen
    obtain ⟨hcommentSound, htokens⟩ := hsame (sound_append.mp hall).2
    rw [cut_append_comment hsound hline hcomment hopen, tokens_append, htokens]
    exact ⟨sound_append.mpr ⟨hsound, hcommentSound⟩, rfl⟩

/-- A comment behind a text without flaws leaves the same tokens as a space, or a line comment the
same as its line feed, exactly if the text does not end in an operator that the slash goes on
with. -/
theorem tokens_comment_iff {text body more : String} (htext : ∃ ls, tokenize text = .ok ls)
    (hslash : text.toList.getLast? ≠ some '/') (hline : endsInLineComment text.toList = false) :
    (¬ ['*', '/'] <:+: body.toList → ∀ {ls}, tokenize (text ++ " " ++ more) = .ok ls →
      ((∃ ls', tokenize (text ++ "/*" ++ body ++ "*/" ++ more) = .ok ls' ∧
        ls'.map Lexeme.token = ls.map Lexeme.token) ↔ endsInOperator text.toList = false)) ∧
    ('\n' ∉ body.toList → ∀ {ls}, tokenize (text ++ "\n" ++ more) = .ok ls →
      ((∃ ls', tokenize (text ++ "//" ++ body ++ "\n" ++ more) = .ok ls' ∧
        ls'.map Lexeme.token = ls.map Lexeme.token) ↔ endsInOperator text.toList = false)) := by
  obtain ⟨_, htext⟩ := htext
  have hsound := (tokenize_eq_ok.mp htext).1
  -- the text ends in no line comment, so the blank behind it is cut off from it
  have hlast : ∀ x ∈ (cut text.toList).getLast?, ¬ ['/', '/'] <+: x.2 := fun x hx => by
    rw [← List.isPrefixOf_iff_prefix]
    exact fun h => Bool.false_ne_true (hline.symm.trans ((Option.any_eq_true _ _).mpr ⟨x, hx, h⟩))
  constructor
  · intro hbody ls h
    have hplain : (text ++ " " ++ more).toList = text.toList ++ ' ' :: more.toList := by simp
    have hcommented : (text ++ "/*" ++ body ++ "*/" ++ more).toList =
        text.toList ++ '/' :: '*' :: (body.toList ++ '*' :: '/' :: more.toList) := by simp
    refine tokenize_append_comment_iff hsound hslash hline (fun x hx d hd => ?_) rfl
      (fun hmore => ?_) hplain hcommented h
    · obtain rfl : ' ' = d := Option.some.inj hd
      exact absorbs_space (hlast x hx)
    · have hwhite : cut (' ' :: more.toList) = _ := cut_white (by decide) more.toList
      rw [hwhite, sound_cons] at hmore
      rw [hwhite, cut_blockComment hbody, sound_cons]
      exact ⟨⟨nofun, hmore.2⟩, rfl⟩
  · intro hbody ls h
    have hplain : (text ++ "\n" ++ more).toList = text.toList ++ '\n' :: more.toList := by simp
    have hcommented : (text ++ "//" ++ body ++ "\n" ++ more).toList =
        text.toList ++ '/' :: '/' :: (body.toList ++ '\n' :: more.toList) := by simp
    refine tokenize_append_comment_iff hsound hslash hline (fun x _ d hd => ?_) rfl
      (fun hmore => ?_) hplain hcommented h
    · obtain rfl : '\n' = d := Option.some.inj hd
      exact absorbs_lineFeed x.2
    · rw [cut_lineComment hbody (by simp), sound_cons]
      exact ⟨⟨nofun, hmore⟩, rfl⟩

/-- Behind an equals sign a comment may stand for a space. -/
theorem tokens_comment_betweenOperands :
    endsInOperator "a =".toList = false ∧ ¬ ['*', '/'] <:+: " c + ".toList ∧
      ∃ ls ls', tokenize ("a =" ++ " " ++ "b") = .ok ls ∧
        tokenize ("a =" ++ "/*" ++ " c + " ++ "*/" ++ "b") = .ok ls' ∧
        ls'.map Lexeme.token = ls.map Lexeme.token := by
  have htext : ∃ ls, tokenize "a =" = .ok ls ∧ true := exists_ok_of_any (by decide +kernel)
  have hplain : ∃ ls, tokenize ("a =" ++ " " ++ "b") = .ok ls ∧ true :=
    exists_ok_of_any (by decide +kernel)
  obtain ⟨_, htext, -⟩ := htext
  obtain ⟨ls, hplain, -⟩ := hplain
  have hopen : endsInOperator "a =".toList = false := by decide +kernel
  have hbody : ¬ ['*', '/'] <:+: " c + ".toList := by decide
  have hiff := (tokens_comment_iff ⟨_, htext⟩ (by decide) (by decide +kernel)).1 hbody hplain
  obtain ⟨ls', hcommented, htokens⟩ := hiff.mpr hopen
  exact ⟨hopen, hbody, ls, ls', hplain, hcommented, htokens⟩

/-- A comment that becomes part of an operator. -/
theorem tokens_ne_operatorComment :
    (∃ ls, tokenize "a +" = .ok ls) ∧ "a +".toList.getLast? ≠ some '/' ∧
      endsInLineComment "a +".toList = false ∧ ¬ ['*', '/'] <:+: " c ".toList ∧
      ∃ ls, tokenize ("a +" ++ " " ++ "b") = .ok ls ∧
        ¬ ∃ ls', tokenize ("a +" ++ "/*" ++ " c " ++ "*/" ++ "b") = .ok ls' ∧
          ls'.map Lexeme.token = ls.map Lexeme.token := by
  have htext : ∃ ls, tokenize "a +" = .ok ls ∧ true := exists_ok_of_any (by decide +kernel)
  have hplain : ∃ ls, tokenize ("a +" ++ " " ++ "b") = .ok ls ∧ ls.length == 4 :=
    exists_ok_of_any (by decide +kernel)
  have hcommented : ∃ ls, tokenize ("a +" ++ "/*" ++ " c " ++ "*/" ++ "b") = .ok ls ∧
      ls.length == 6 := exists_ok_of_any (by decide +kernel)
  obtain ⟨_, htext, -⟩ := htext
  obtain ⟨ls, hplain, hlength⟩ := hplain
  refine ⟨⟨_, htext⟩, by decide, by decide +kernel, by decide, ls, hplain, ?_⟩
  rintro ⟨ls', hcommented', htokens⟩
  obtain ⟨ls'', hcommented, hlength'⟩ := hcommented
  obtain rfl := Except.ok.inj (hcommented.symm.trans hcommented')
  have hsame := congrArg List.length htokens
  simp only [List.length_map, eq_of_beq hlength, eq_of_beq hlength'] at hsame
  exact absurd hsame (by decide)

end FieldShadow
