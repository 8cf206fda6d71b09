import FieldShadow.Proofs.Token.Joined

/-!
# Tokens at their places

The span of a token says where its spelling stands: the characters of the text from the start to the
stop of a token spell it (`Span.characters_eq`). Identifiers are made of letters and digits, so what
is known of one is said at once (`exists_of_identifier`).
-/

namespace FieldShadow

/-! ## Characters between two places -/

namespace Position

instance : DecidableLE Position :=
  fun _ _ => decidable_of_iff' _ le_iff

theorem le_refl (p : Position) : p ≤ p := by
  simp [le_iff]

theorem not_le_of_lt {p q : Position} (h : p < q) : ¬ q ≤ p := by
  rw [lt_iff] at h
  rw [le_iff]
  omega

/-- A text without line feeds stays on its line. -/
theorem line_behind_append {before word : List Char} (h : '\n' ∉ word) :
    (behind before).line = (behind (before ++ word)).line := by
  simp [behind, List.count_eq_zero.mpr h]

end Position

/-- The characters of a text with their places, when the text `before` stands in front of it. -/
def placed (before : List Char) : List Char → List (Position × Char)
  | [] => []
  | c :: rest => (.behind before, c) :: placed (before ++ [c]) rest

/-- Whether a place is in a span, whose stop counts as well. -/
def Span.includes (s : Span) (p : Position) : Bool :=
  s.start ≤ p && p ≤ s.stop

/-- The characters of a text in a span. -/
def Span.characters (s : Span) (text : List Char) : List Char :=
  ((placed [] text).filter fun p => s.includes p.1).map Prod.snd

/-- A span includes the places from its start to its end, both included. -/
theorem Span.includes_iff {s : Span} {p : Position} :
    s.includes p ↔ s.start ≤ p ∧ p ≤ s.stop := by
  simp [includes]

/-- The characters of two texts behind each other are placed one text behind the other. -/
theorem placed_append (before x y : List Char) :
    placed before (x ++ y) = placed before x ++ placed (before ++ x) y := by
  induction x generalizing before with
  | nil => simp [placed]
  | cons c x ih => simp [placed, ih]

/-- Placing characters changes none of them. -/
theorem map_snd_placed (before text : List Char) : (placed before text).map Prod.snd = text := by
  induction text generalizing before with
  | nil => rfl
  | cons c text ih => rw [placed, List.map_cons, ih]

/-- A character stands behind what is in front of the text, and before what follows the text. -/
theorem bounds_of_mem_placed {before text : List Char} {p : Position × Char}
    (h : p ∈ placed before text) :
    .behind before ≤ p.1 ∧ p.1 < .behind (before ++ text) := by
  induction text generalizing before with
  | nil => exact absurd h List.not_mem_nil
  | cons c text ih =>
    have hstep := Position.behind_lt_append before c
    have hrest := Position.behind_le_append (before ++ [c]) text
    rw [List.append_assoc, List.singleton_append] at hrest
    rcases List.mem_cons.mp h with rfl | h
    · exact ⟨Position.le_refl _, Position.lt_of_lt_of_le hstep hrest⟩
    · obtain ⟨hle, hlt⟩ := ih h
      rw [List.append_assoc, List.singleton_append] at hlt
      exact ⟨Position.le_trans (Position.le_of_lt hstep) hle, hlt⟩

/-- What stands between two places, the last character of it at the second. -/
theorem Span.characters_eq (before word rest : List Char) (last : Char) :
    Span.characters ⟨.behind before, .behind (before ++ word)⟩
        (before ++ (word ++ [last]) ++ rest) = word ++ [last] := by
  -- the last character of the word is at the end of the span, and what follows is beyond it
  have hstep := Position.behind_lt_append (before ++ word) last
  have hbefore : ∀ p ∈ placed [] before,
      ¬ Span.includes ⟨.behind before, .behind (before ++ word)⟩ p.1 := by
    intro p hp h
    exact Position.not_le_of_lt (bounds_of_mem_placed hp).2 (includes_iff.mp h).1
  have hinside : ∀ p ∈ placed before (word ++ [last]),
      Span.includes ⟨.behind before, .behind (before ++ word)⟩ p.1 := by
    intro p hp
    refine includes_iff.mpr ⟨(bounds_of_mem_placed hp).1, ?_⟩
    rw [placed_append] at hp
    rcases List.mem_append.mp hp with hp | hp
    · exact Position.le_of_lt (bounds_of_mem_placed hp).2
    · obtain rfl := List.mem_singleton.mp hp
      exact Position.le_refl _
  have hrest : ∀ p ∈ placed (before ++ (word ++ [last])) rest,
      ¬ Span.includes ⟨.behind before, .behind (before ++ word)⟩ p.1 := by
    intro p hp h
    have hle := (bounds_of_mem_placed hp).1
    rw [← List.append_assoc] at hle
    exact Position.not_le_of_lt (Position.lt_of_lt_of_le hstep hle) (includes_iff.mp h).2
  rw [characters, placed_append, placed_append, List.nil_append, List.nil_append,
    List.filter_append, List.filter_append, List.filter_eq_nil_iff.mpr hbefore,
    List.filter_eq_self.mpr hinside, List.filter_eq_nil_iff.mpr hrest, List.nil_append,
    List.append_nil, map_snd_placed]

/-! ## Where tokens stand -/

/-- A token that is not the end of the text has its spelling in its span. -/
theorem Spells.exists_of_mem {before text : List Char} {ls : List Lexeme} {l : Lexeme}
    (h : Spells before text ls) (hl : l ∈ ls) (heof : l.token ≠ .eof) :
    ∃ front word last rest, before ++ text = front ++ (word ++ [last]) ++ rest ∧
      l.token.spelling.toList = word ++ [last] ∧
      l.span = ⟨.behind front, .behind (front ++ word)⟩ := by
  induction h with
  | stop =>
    obtain rfl := List.mem_singleton.mp hl
    exact absurd rfl heof
  | @token before layout word rest last t ls hlayout ht hspelling h ih =>
    rcases List.mem_cons.mp hl with rfl | hl
    · exact ⟨before ++ layout, word, last, rest, by simp, hspelling, rfl⟩
    · obtain ⟨front, word', last', rest', htext, hspelling', hspan⟩ := ih hl
      exact ⟨front, word', last', rest', by rw [← htext]; simp, hspelling', hspan⟩

/-- The tokens of a source text, with the text that each is cut from. -/
theorem exists_of_mem_tokenize {source : String} {ls : List Lexeme} {l : Lexeme}
    (h : tokenize source = .ok ls) (hl : l ∈ ls) (heof : l.token ≠ .eof) :
    ∃ front word last rest, source.toList = front ++ (word ++ [last]) ++ rest ∧
      l.token.spelling.toList = word ++ [last] ∧
      l.span = ⟨.behind front, .behind (front ++ word)⟩ :=
  (spells_of_tokenize h).exists_of_mem hl heof

/-! ## Identifiers -/

namespace Piece

/-- A word that is an identifier is named by itself. -/
theorem ofWord_eq_identifier {word name : String} (h : Token.ofWord word = .identifier name) :
    name = word := by
  have hspelling := (ofWord_spelling word).2
  rwa [h] at hspelling

/-- What an identifier may begin with it may go on with. -/
theorem isIdentifierPart_of_isIdentifierStart {c : Char} (h : isIdentifierStart c) :
    isIdentifierPart c := by
  simp only [isIdentifierStart, Bool.or_eq_true] at h
  rcases h with (h | h) | h <;> simp [isIdentifierPart, Unicode.isAlphanumeric, h]

/-- An identifier is read from a run of its characters. -/
theorem isIdentifierPart_of_first {c d : Char} {rest : List Char} {name : String} {n : Nat}
    (h : first c rest = (.token (.identifier name), n)) (hd : d ∈ name.toList) :
    isIdentifierPart d := by
  unfold first at h
  split at h
  · cases h
  · split at h
    case h_12 =>
      unfold dots at h
      split at h <;> cases h
    case h_13 =>
      unfold colons at h
      split at h <;> cases h
    case h_14 =>
      unfold equals at h
      split at h <;> cases h
    case h_15 =>
      unfold slash at h
      split at h
      · cases h
      · split at h <;> cases h
      · cases h
    case h_16 | h_17 =>
      have h := congrArg Prod.fst h
      simp only [quoted] at h
      split at h <;> cases h
    -- only a word can be an identifier; the other cases give another token
    case h_18 =>
      split at h
      · cases h
      · split at h
        · cases h
        · split at h
          · next hstart =>
            have hword := Piece.token.inj (Prod.mk.inj h).1
            rw [ofWord_eq_identifier hword, String.toList_ofList] at hd
            rcases List.mem_cons.mp hd with rfl | hd
            · exact isIdentifierPart_of_isIdentifierStart hstart
            · exact List.all_eq_true.mp List.all_takeWhile d hd
          · cases h
    all_goals cases h

/-- An identifier that is read has the characters of one only. -/
theorem isIdentifierPart_of_written {p : Position} {text : List Char} {name : String} {s : Span} :
    ⟨.identifier name, s⟩ ∈ written p (cut text) → ∀ d ∈ name.toList, isIdentifierPart d := by
  fun_induction cut text generalizing p with
  | case1 => exact fun h => absurd h List.not_mem_nil
  | case2 c rest ih =>
    cases hfirst : first c rest with
    | mk piece n =>
    rw [hfirst] at ih
    cases piece with
    | token t =>
      intro h
      rcases List.mem_cons.mp h with heq | h
      · obtain ⟨rfl, -⟩ := Lexeme.mk.inj heq
        exact fun d hd => isIdentifierPart_of_first hfirst hd
      · exact ih h
    | blank | flaw => exact ih

end Piece

/-- An identifier of a text: what is in front of it and behind it, its letters and digits, and its
span. -/
theorem exists_of_identifier {source : String} {ls : List Lexeme} {name : String} {s : Span}
    (h : tokenize source = .ok ls) (hl : ⟨.identifier name, s⟩ ∈ ls) :
    ∃ front word last rest, source.toList = front ++ name.toList ++ rest ∧
      name.toList = word ++ [last] ∧ s = ⟨.behind front, .behind (front ++ word)⟩ ∧
      ∀ c ∈ name.toList, Piece.isIdentifierPart c := by
  obtain ⟨front, word, last, rest, htext, hspelling, hspan⟩ := exists_of_mem_tokenize h hl nofun
  have hname : name.toList = word ++ [last] := hspelling
  refine ⟨front, word, last, rest, by rw [hname, htext], hname, hspan, ?_⟩
  obtain ⟨-, rfl⟩ := tokenize_eq_ok.mp h
  rcases List.mem_append.mp hl with hl | hl
  · exact Piece.isIdentifierPart_of_written hl
  · cases (Lexeme.mk.inj (List.mem_singleton.mp hl)).1

end FieldShadow
