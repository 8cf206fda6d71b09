import FieldShadow.Proofs.Grammar.Bounds

/-!
# Calls of one parser

A parser counts its places on a row of tokens that ends with `eof` (`Cursor.terminated`), and it can
be asked for units as often as one likes. All readers are total, so every call has an answer, and
whatever the tokens are the parser keeps to the indices of its row (`Parser.bounds_of_calls`). After
a unit that could be read only empty ones come; after an error the answer stays that error.
-/

namespace FieldShadow

namespace Cursor

variable {ρ α : Type} {c whole : Cursor}

/-! ## The end of a unit -/

/-- Only an `eof` ends a unit. -/
theorem current_of_declarations {c : Cursor} {r : From c (List Outline)}
    (h : c.declarations = .ok r) : r.rest.current = .eof := by
  refine declarations_induction (motive := fun _ r => r.rest.current = .eof) ?_ ?_ h
  · exact fun _ hcurrent => hcurrent
  · exact fun _ _ _ _ _ hothers => hothers

/-! ## Rows of tokens and their indices -/

/-- The tokens that are left, with the `eof` behind them. -/
def row (c : Cursor) : List Lexeme :=
  c.pending ++ [⟨.eof, c.stop⟩]

/-- The tokens that a parser counts its places on: those it is given, and an `eof` where the last
one ends if that is none. -/
def terminated (lexemes : List Lexeme) : List Lexeme :=
  match lexemes.getLast? with
  | none => [⟨.eof, .at ⟨1, 1⟩⟩]
  | some last =>
    if last.token = .eof then lexemes else lexemes ++ [⟨.eof, .at last.span.stop⟩]

/-- The row of a parser is what it was given, with an end if it had none. -/
theorem row_ofLexemes (lexemes : List Lexeme) : (ofLexemes lexemes).row = terminated lexemes := by
  unfold ofLexemes terminated
  cases hlast : lexemes.getLast? with
  | none => rfl
  | some last =>
    by_cases heof : last.token = .eof
    · have hlexeme : (⟨.eof, last.span⟩ : Lexeme) = last := by rw [← heof]
      simp only [heof, if_true, row, hlexeme]
      exact List.dropLast_append_getLast? last hlast
    · simp only [heof, if_false, row]

/-- The cursor stands at this index of a row: what is left begins there. -/
def IsAt (c : Cursor) (tokens : List Lexeme) (i : Nat) : Prop :=
  tokens.drop i = c.row

section

variable {d : Cursor} {tokens : List Lexeme} {i : Nat}

/-- A place at an index has as many tokens left as are behind the index. -/
theorem IsAt.length_eq (h : c.IsAt tokens i) : tokens.length = i + c.remaining + 1 := by
  have hlength := congrArg List.length h
  simp only [List.length_drop, row, List.length_append, List.length_singleton] at hlength
  unfold remaining
  omega

/-- An index of the row, whatever place that is. -/
theorem IsAt.lt (h : c.IsAt tokens i) : i < tokens.length := by
  rw [h.length_eq]
  omega

/-- The token at the cursor is the one with that index. -/
theorem IsAt.getElem? (h : c.IsAt tokens i) : tokens[i]? = some ⟨c.current, c.span⟩ := by
  have hhead : tokens[i]? = c.row[0]? := by
    rw [← show tokens.drop i = c.row from h, List.getElem?_drop, Nat.add_zero]
  obtain ⟨pending, stop⟩ := c
  cases pending <;> exact hhead

/-- A place further on is at an index further on. -/
theorem IsAt.of_placeIn (h : c.IsAt tokens i) (hd : d.PlaceIn c) :
    d.IsAt tokens (i + (c.remaining - d.remaining)) := by
  obtain ⟨before, hbefore⟩ := hd.suffix
  have hrow : c.row = before ++ d.row := by
    rw [row, row, ← hbefore, hd.stop_eq, List.append_assoc]
  have hlength : c.remaining - d.remaining = before.length := by
    rw [remaining, remaining, ← hbefore, List.length_append]
    omega
  rw [IsAt, ← List.drop_drop, h, hrow, hlength, List.drop_left]

/-- Going forward leads to the next index, and it stays at the last one. -/
theorem IsAt.skip (h : c.IsAt tokens i) : c.skip.IsAt tokens (min (i + 1) (tokens.length - 1)) := by
  have hplace := h.of_placeIn (PlaceIn.refl c).skip
  have hindex : min (i + 1) (tokens.length - 1) = i + (c.remaining - c.skip.remaining) := by
    rw [h.length_eq]
    simp only [remaining, Cursor.skip, List.length_tail]
    omega
  rwa [hindex]

/-- A demand is not met at this index of a row or at a later one. -/
def FaultFrom (tokens : List Lexeme) (i : Nat) (e : SyntaxError) : Prop :=
  ∃ (j : Nat) (d : Cursor) (demand : Demand),
    i ≤ j ∧ j < tokens.length ∧ d.IsAt tokens j ∧ e = d.fault demand

/-- From every index of a row a reader leads to a later one, or it fails at one that is no
earlier. -/
structure Advances (tokens : List Lexeme)
    (reader : (c : Cursor) → Except SyntaxError (After c α)) : Prop where
  ends : ∀ {i : Nat} {c : Cursor} {r : After c α}, c.IsAt tokens i → reader c = .ok r →
    ∃ j, i < j ∧ j < tokens.length ∧ r.rest.IsAt tokens j
  fails : ∀ {i : Nat} {c : Cursor} {e : SyntaxError}, c.IsAt tokens i → reader c = .error e →
    FaultFrom tokens i e

section

variable {rest : ρ → Cursor} {a : Except SyntaxError ρ}

/-- What is read ends at a place of the row. -/
theorem StaysIn.place_of_ok (h : StaysIn whole rest a) {r : ρ} (hr : a = .ok r) :
    (rest r).PlaceIn whole := by
  cases h with
  | ends place =>
    obtain rfl := Except.ok.inj hr
    exact place
  | fails => cases hr

/-- An error names a token at or behind the index. -/
theorem StaysIn.faultFrom (h : StaysIn c rest a) (hc : c.IsAt tokens i) {e : SyntaxError}
    (he : a = .error e) : FaultFrom tokens i e := by
  cases h with
  | ends => cases he
  | fails place demand =>
    obtain rfl := Except.error.inj he
    have hat := hc.of_placeIn place
    exact ⟨_, _, demand, Nat.le_add_right _ _, hat.lt, hat, rfl⟩

end

/-- A reader that stays in its row advances in every vector of tokens. -/
theorem advances_of_staysIn {reader : (c : Cursor) → Except SyntaxError (After c α)}
    (h : ∀ c, StaysIn c After.rest (reader c)) (tokens : List Lexeme) :
    Advances tokens reader where
  ends hc hr := by
    have hat := hc.of_placeIn ((h _).place_of_ok hr)
    exact ⟨_, Nat.lt_add_of_pos_right (Nat.sub_pos_of_lt (After.behind _)), hat.lt, hat⟩
  fails hc he := (h _).faultFrom hc he

end

end Cursor

namespace Parser

open Cursor

/-! ## Calls of one parser -/

/-- The parser after a number of calls. -/
def after (p : Parser) : Nat → Parser
  | 0 => p
  | n + 1 => (p.after n).next.2

/-- What a call gives after a number of calls before it. -/
def answer (p : Parser) (n : Nat) : Except ParseError SyntaxTree :=
  (p.after n).next.1

/-- The messages that a parser has collected. -/
def messages (p : Parser) : List String :=
  p.error?.toList.map ParseError.message

variable {p : Parser}

/-- What a call can do: give the error that is there already, read a unit and stand behind it, or
find an error and keep it. -/
theorem next_cases (p : Parser) :
    (∃ e, p.error? = some e ∧ p.next = (.error e, p)) ∨
    (∃ r, p.error? = none ∧ p.cursor.declarations = .ok r ∧
      p.next = (.ok (.ofOutlines r.value), ⟨r.rest, none⟩)) ∨
    (∃ e, p.error? = none ∧ p.cursor.declarations = .error e ∧
      p.next = (.error (.grammar e), ⟨p.cursor, some (.grammar e)⟩)) := by
  obtain ⟨c, e?⟩ := p
  cases e? with
  | some e => exact .inl ⟨e, rfl, rfl⟩
  | none =>
    refine .inr ?_
    cases h : c.declarations with
    | ok r => exact .inl ⟨r, rfl, rfl, by simp only [next, h]⟩
    | error e => exact .inr ⟨e, rfl, rfl, by simp only [next, h]⟩

/-- One call leads to a place that is no earlier. -/
theorem placeIn_next (p : Parser) : p.next.2.cursor.PlaceIn p.cursor := by
  rcases p.next_cases with ⟨e, -, h⟩ | ⟨r, -, hr, h⟩ | ⟨e, -, -, h⟩
  · rw [h]
    exact .refl _
  · rw [h]
    exact (staysIn_declarations (.refl _)).place_of_ok hr
  · rw [h]
    exact .refl _

/-- After any number of calls the parser is at an index of its vector. -/
theorem exists_isAt_after (lexemes : List Lexeme) (n : Nat) :
    ∃ i, ((ofLexemes lexemes).after n).cursor.IsAt (terminated lexemes) i := by
  induction n with
  | zero => exact ⟨0, (row_ofLexemes lexemes).symm⟩
  | succ n ih =>
    obtain ⟨i, hi⟩ := ih
    exact ⟨_, hi.of_placeIn (placeIn_next _)⟩

/-- A parser that the second call leaves as the first did is the same from then on. -/
theorem after_succ_of_next {a : Except ParseError SyntaxTree}
    (h : p.next.2.next = (a, p.next.2)) (n : Nat) : p.after (n + 1) = p.next.2 := by
  induction n with
  | zero => rfl
  | succ n ih => rw [after, ih, h]

/-- Behind a unit that was read there are only empty ones. -/
theorem after_of_ok {t : SyntaxTree} (h : p.answer 0 = .ok t) (n : Nat) :
    (p.after (n + 1)).cursor.current = .eof ∧ p.answer (n + 1) = .ok .empty := by
  have h : p.next.1 = .ok t := h
  rcases p.next_cases with ⟨e, -, hnext⟩ | ⟨r, -, hr, hnext⟩ | ⟨e, -, -, hnext⟩
  · rw [hnext] at h
    cases h
  · have hcurrent := current_of_declarations hr
    have hagain : p.next.2.next = (.ok .empty, p.next.2) := by
      rw [hnext, next, declarations_of_current hcurrent]
      rfl
    rw [answer, after_succ_of_next hagain n, hagain, hnext]
    exact ⟨hcurrent, rfl⟩
  · rw [hnext] at h
    cases h

/-- After an error there is no other. -/
theorem after_of_error {e : ParseError} (h : p.answer 0 = .error e) (n : Nat) :
    p.answer n = .error e ∧ (p.after (n + 1)).messages = [e.message] := by
  have h : p.next.1 = .error e := h
  have herror : p.next.2.error? = some e := by
    rcases p.next_cases with ⟨e', herror, hnext⟩ | ⟨r, -, -, hnext⟩ | ⟨e', -, -, hnext⟩
    · rw [hnext] at h ⊢
      rw [herror, Except.error.inj h]
    · rw [hnext] at h
      cases h
    · rw [hnext] at h ⊢
      rw [Except.error.inj h]
  have hagain : p.next.2.next = (.error e, p.next.2) := by rw [next, herror]
  constructor
  · cases n with
    | zero => exact h
    | succ n => rw [answer, after_succ_of_next hagain n, hagain]
  · rw [after_succ_of_next hagain n, messages, herror]
    rfl

/-- The first error is a demand that is not met at one of the tokens. -/
theorem faultFrom_of_answer {lexemes : List Lexeme} {e : ParseError}
    (h : (ofLexemes lexemes).answer 0 = .error e) :
    ∃ e', e = .grammar e' ∧ FaultFrom (terminated lexemes) 0 e' := by
  have h : (ofLexemes lexemes).next.1 = .error e := h
  rcases (ofLexemes lexemes).next_cases with
    ⟨e', herror, -⟩ | ⟨r, -, -, hnext⟩ | ⟨e', -, he, hnext⟩
  · cases herror
  · rw [hnext] at h
    cases h
  · rw [hnext] at h
    have hstart : (ofLexemes lexemes).cursor.IsAt (terminated lexemes) 0 :=
      (row_ofLexemes lexemes).symm
    exact ⟨e', (Except.error.inj h).symm, (staysIn_declarations (.refl _)).faultFrom hstart he⟩

/-- Whatever the tokens are and however often a parser is called, it stands at an index of its row,
from where it can only see and pass the token of that index. Members, statements and creations lead
to a later index or fail at an index. A unit that is read leaves an `eof` and empty units behind
it; one that is not leaves one message about a token of the row, and that is the answer of every
call. -/
theorem bounds_of_calls (lexemes : List Lexeme) :
    let p := ofLexemes lexemes
    let tokens := terminated lexemes
    (∀ n, ∃ i < tokens.length, (p.after n).cursor.IsAt tokens i) ∧
    (∀ i c, IsAt c tokens i → tokens[i]? = some ⟨c.current, c.span⟩ ∧
      c.skip.IsAt tokens (min (i + 1) (tokens.length - 1))) ∧
    (Advances tokens member ∧ Advances tokens statement ∧ Advances tokens creation) ∧
    (∀ t, p.answer 0 = .ok t → ∀ n, (p.after (n + 1)).cursor.current = .eof ∧
      p.answer (n + 1) = .ok .empty) ∧
    (∀ e, p.answer 0 = .error e →
      (∃ e', e = .grammar e' ∧ FaultFrom tokens 0 e') ∧
      ∀ n, p.answer n = .error e ∧ (p.after (n + 1)).messages = [e.message]) := by
  intro p tokens
  refine ⟨fun n => ?_, fun i c hc => ⟨hc.getElem?, hc.skip⟩, ⟨?_, ?_, ?_⟩, ?_, ?_⟩
  · obtain ⟨i, hi⟩ := exists_isAt_after lexemes n
    exact ⟨i, hi.lt, hi⟩
  · exact advances_of_staysIn
      (fun c => staysIn_member (staysBelow c _) (Nat.lt_succ_self _) (.refl c)) tokens
  · exact advances_of_staysIn
      (fun c => staysIn_statement (staysBelow c _) (Nat.le_refl _) (.refl c)) tokens
  · exact advances_of_staysIn
      (fun c => staysIn_creation (staysBelow c _) (Nat.le_refl _) (.refl c)) tokens
  · exact fun t ht n => after_of_ok ht n
  · exact fun e he => ⟨faultFrom_of_answer he, after_of_error he⟩

end Parser

end FieldShadow
