import FieldShadow.Proofs.Token.Comment
import FieldShadow.Proofs.Token.Joined
import Mathlib.Data.List.TakeWhile

/-!
# Tokens written out again

A token is read from its own spelling and nothing more (`Piece.first_take`), and a space behind it
is never taken in. So the tokens of a text, written out with single spaces between them, are read
back as they were (`tokenize_spaced`); of all rows of tokens those and no others are
(`tokenize_spaced_iff`).
-/

namespace FieldShadow

/-- Some tokens written out with single spaces between them. -/
def spaced (ts : List Token) : String :=
  " ".intercalate (ts.map Token.spelling)

/-- Whether a token is what is read from its spelling, up to the end of it. -/
def Token.IsReadable (t : Token) : Prop :=
  ∃ c rest, t.spelling.toList = c :: rest ∧ Piece.first c rest = (.token t, rest.length)

namespace Piece

variable {c : Char} {rest : List Char} {t : Token} {n : Nat}

/-! ## Tokens without the text behind them -/

/-- A run is read again from its own characters. -/
theorem run_take {part : Char → Bool} {make : String → Token} {piece : Piece}
    (h : run part make c rest = (piece, n)) : run part make c (rest.take n) = (piece, n) := by
  obtain ⟨rfl, rfl⟩ := Prod.mk.inj h
  have htake : rest.take (rest.takeWhile part).length = rest.takeWhile part :=
    (List.prefix_iff_eq_take.mp (List.takeWhile_prefix part)).symm
  rw [htake, run, List.takeWhile_idem]

/-- A closed literal ends where it ended, without the text behind it. -/
theorem quotedLength_take {quote : Char} (h : (quotedLength quote rest).2 = true) :
    quotedLength quote (rest.take (quotedLength quote rest).1) = quotedLength quote rest := by
  fun_induction quotedLength quote rest with
  | case1 | case3 | case5 => simp at h
  | case2 rest => simp [quotedLength]
  | case4 hquote _ after m closed hlength ih => simp_all [quotedLength]
  | case6 d rest hquote hslash hfeed m closed hlength ih =>
    rw [List.take_succ_cons, quotedLength.eq_def]
    simp_all

theorem quoted_take {quote : Char} (h : quoted quote rest = (.token t, n)) :
    quoted quote (rest.take n) = (.token t, n) := by
  cases hclosed : (quotedLength quote rest).2 with
  | false => simp [quoted, hclosed] at h
  | true =>
    obtain rfl : (quotedLength quote rest).1 = n := congrArg Prod.snd h
    rw [← h, quoted, quoted, quotedLength_take hclosed]
    simp only [List.take_take, Nat.min_self]

/-- An operator that begins with a slash is read again. -/
theorem slash_take (h : slash rest = (.token t, n)) : slash (rest.take n) = (.token t, n) := by
  fun_cases slash rest with
  | case1 => simp [slash] at h
  | case2 _ _ hm => simp [slash, hm] at h
  | case3 _ hm => simp [slash, hm] at h
  | case4 _ hslash hstar =>
    -- without the text behind it, too, the slash opens no comment
    have hhead : ∀ d ∈ rest.head?, d ≠ '/' ∧ d ≠ '*' := fun d hd => by
      obtain ⟨ds, rfl⟩ := List.head?_eq_some_iff.1 hd
      exact ⟨fun hd => hslash ds (by rw [hd]), fun hd => hstar ds (by rw [hd])⟩
    rw [slash_eq_run hhead] at h
    rw [slash_eq_run, run_take h]
    intro d hd
    refine hhead d ?_
    cases n <;> cases rest <;> simp_all

theorem dots_take (h : dots rest = (.token t, n)) : dots (rest.take n) = (.token t, n) := by
  unfold dots at h
  split at h <;> cases h <;> rfl

theorem colons_take (h : colons rest = (.token t, n)) : colons (rest.take n) = (.token t, n) := by
  unfold colons at h
  split at h <;> cases h <;> rfl

theorem equals_take (h : equals rest = (.token t, n)) : equals (rest.take n) = (.token t, n) := by
  unfold equals at h
  split at h <;> cases h <;> rfl

/-- A token is read from its own text alone. -/
theorem first_take (h : first c rest = (.token t, n)) :
    first c (rest.take n) = (.token t, n) := by
  unfold first at h ⊢
  split at h
  · cases h
  · next hwhite =>
    rw [if_neg hwhite]
    split at h
    case h_12 => exact dots_take h
    case h_13 => exact colons_take h
    case h_14 => exact equals_take h
    case h_15 => exact slash_take h
    case h_16 | h_17 => exact quoted_take h
    case h_18 =>
      split at h
      · next hstart => rw [if_pos hstart, run_take h]
      · next hstart =>
        rw [if_neg hstart]
        split at h
        · next hdigit => rw [if_pos hdigit, run_take h]
        · next hdigit =>
          rw [if_neg hdigit]
          split at h
          · next hword => rw [if_pos hword, run_take h]
          · cases h
    all_goals exact h

/-- Every token that is read from a text can be read again from its spelling. -/
theorem isReadable_of_first (h : first c rest = (.token t, n)) : t.IsReadable := by
  have hle : n ≤ rest.length := by
    have := first_le c rest
    rwa [h] at this
  refine ⟨c, rest.take n, (isSpelling_of_first h).2.1, ?_⟩
  rw [List.length_take_of_le hle, first_take h]

/-- A token does not begin like a line comment. -/
theorem not_lineComment_of_first (h : first c rest = (.token t, n)) :
    ¬ ['/', '/'] <+: c :: rest := by
  rintro ⟨more, hmore⟩
  obtain ⟨rfl, rfl⟩ := List.cons.inj hmore
  cases h

/-- A token is cut off in front of a space. -/
theorem cut_append_space (h : first c rest = (.token t, rest.length)) (more : List Char) :
    cut (c :: rest ++ ' ' :: more) =
      (.token t, c :: rest) :: (.blank, [' ']) :: cut more := by
  have hspace : absorbs (c :: rest) ' ' = false := absorbs_space (not_lineComment_of_first h)
  have hfirst : first c (rest ++ ' ' :: more) = (.token t, rest.length) := by
    refine first_append h nofun fun _ d hd => ?_
    obtain rfl : ' ' = d := Option.some.inj hd
    exact hspace
  rw [List.cons_append, cut_of_first hfirst, List.take_left, List.drop_left,
    cut_white (by decide)]

/-! ## Rows of tokens -/

theorem isReadable_of_mem_tokens {text : List Char} (h : t ∈ tokens (cut text)) :
    t.IsReadable := by
  fun_induction cut text with
  | case1 => simp [tokens] at h
  | case2 c rest ih =>
    cases hfirst : first c rest with
    | mk piece n =>
    rw [hfirst] at h ih
    cases piece with
    | token t' =>
      rcases List.mem_cons.mp h with rfl | h
      · exact isReadable_of_first hfirst
      · exact ih h
    | blank | flaw => exact ih h

/-- Readable tokens are read back, whatever stands behind their spaces. -/
theorem cut_spaced {ts : List Token} (h : ∀ t ∈ ts, t.IsReadable) :
    Sound (cut (spaced ts).toList) ∧ tokens (cut (spaced ts).toList) = ts := by
  induction ts with
  | nil =>
    have hcut : cut (spaced []).toList = [] := cut.eq_1
    rw [hcut]
    exact ⟨List.forall_mem_nil _, rfl⟩
  | cons t ts ih =>
    obtain ⟨⟨c, rest, hspelling, hfirst⟩, hts⟩ := List.forall_mem_cons.mp h
    obtain ⟨hsound, htokens⟩ := ih hts
    cases ts with
    | nil =>
      have hcut : cut (spaced [t]).toList = [(.token t, c :: rest)] := by
        rw [spaced, List.map_singleton, String.intercalate_singleton, hspelling,
          cut_of_first hfirst, List.take_length, List.drop_length, cut]
      rw [hcut]
      exact ⟨sound_cons.mpr ⟨by simp, List.forall_mem_nil _⟩, rfl⟩
    | cons t' ts =>
      have hcut : cut (spaced (t :: t' :: ts)).toList =
          (.token t, c :: rest) :: (.blank, [' ']) :: cut (spaced (t' :: ts)).toList := by
        -- a space stands between two tokens, which ends the first one
        have htext : (spaced (t :: t' :: ts)).toList =
            c :: rest ++ ' ' :: (spaced (t' :: ts)).toList := by
          rw [spaced, List.map_cons, List.map_cons, String.intercalate_cons_cons,
            String.toList_append, String.toList_append, hspelling, List.append_assoc]
          rfl
        rw [htext, cut_append_space hfirst]
      rw [hcut]
      refine ⟨sound_cons.mpr ⟨by simp, sound_cons.mpr ⟨by simp, hsound⟩⟩, ?_⟩
      exact congrArg (t :: ·) htokens

end Piece

open Piece

/-- Written out with spaces a row of tokens is read back as it was exactly if each of them is read
from its own spelling. -/
theorem tokenize_spaced_iff {ts : List Token} :
    (∃ ls, tokenize (spaced ts) = .ok ls ∧ ls.map Lexeme.token = ts ++ [.eof]) ↔
      ∀ t ∈ ts, t.IsReadable := by
  rw [exists_tokenize_eq_ok_iff]
  constructor
  · rintro ⟨-, htokens⟩ t ht
    rw [← htokens] at ht
    exact isReadable_of_mem_tokens ht
  · exact cut_spaced

/-- Written out with single spaces between them the tokens of a text are read back as they were,
places aside. -/
theorem tokenize_spaced {source : String} {ls : List Lexeme} (h : tokenize source = .ok ls) :
    ∃ ls', tokenize (spaced ((ls.map Lexeme.token).filter (· ≠ .eof))) = .ok ls' ∧
      ls'.map Lexeme.token = ls.map Lexeme.token := by
  obtain ⟨-, rfl⟩ := tokenize_eq_ok.mp h
  have hne : ∀ t ∈ tokens (cut source.toList), t ≠ .eof := fun t ht => by
    rw [← map_token_written ⟨1, 0⟩] at ht
    obtain ⟨l, hl, rfl⟩ := List.mem_map.mp ht
    exact token_ne_eof l hl
  have hfilter : (tokens (cut source.toList) ++ [Token.eof]).filter (· ≠ .eof) =
      tokens (cut source.toList) := by
    rw [List.filter_append, List.filter_eq_self.mpr (by simpa using hne)]
    simp
  rw [List.map_append, map_token_written, List.map_singleton, hfilter]
  exact tokenize_spaced_iff.mpr fun t => isReadable_of_mem_tokens

/-- Tokens that stand close together, with an operator that looks like a comment and a literal over
two lines. -/
def closeSource : String :=
  "super+/*x/=a...0x1.5:'\\\n'==;"

/-- The tokens of `closeSource`. -/
def closeTokens : List Lexeme :=
  [⟨.operator "super", ⟨⟨1, 1⟩, ⟨1, 5⟩⟩⟩, ⟨.operator "+/*", ⟨⟨1, 6⟩, ⟨1, 8⟩⟩⟩,
    ⟨.identifier "x", .at ⟨1, 9⟩⟩, ⟨.operator "/=", ⟨⟨1, 10⟩, ⟨1, 11⟩⟩⟩,
    ⟨.identifier "a", .at ⟨1, 12⟩⟩, ⟨.ellipsis, ⟨⟨1, 13⟩, ⟨1, 15⟩⟩⟩,
    ⟨.literal "0x1.5", ⟨⟨1, 16⟩, ⟨1, 20⟩⟩⟩, ⟨.colon, .at ⟨1, 21⟩⟩,
    ⟨.literal "'\\\n'", ⟨⟨1, 22⟩, ⟨2, 1⟩⟩⟩, ⟨.operator "==", ⟨⟨2, 2⟩, ⟨2, 3⟩⟩⟩,
    ⟨.semicolon, .at ⟨2, 4⟩⟩, ⟨.eof, .at ⟨2, 5⟩⟩]

/-- Tokens that stood close to each other, a glued operator and a literal with an escaped line feed
among them, are the same with spaces between. -/
theorem tokenize_spaced_closeSource :
    tokenize closeSource = .ok closeTokens ∧
      ∃ ls, tokenize "super +/* x /= a ... 0x1.5 : '\\\n' == ;" = .ok ls ∧
        ls.map Lexeme.token = closeTokens.map Lexeme.token := by
  have h : tokenize closeSource = .ok closeTokens := eq_ok_of_toOption (by decide +kernel)
  have htext : spaced ((closeTokens.map Lexeme.token).filter (· ≠ .eof)) =
      "super +/* x /= a ... 0x1.5 : '\\\n' == ;" := by
    decide +kernel
  exact ⟨h, htext ▸ tokenize_spaced h⟩

end FieldShadow
