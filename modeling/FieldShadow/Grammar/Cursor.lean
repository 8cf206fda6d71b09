import FieldShadow.Grammar.SyntaxError

/-!
# Places in a token sequence

A `Cursor` is the rest of a token sequence. Going forward shortens it and nothing else changes it,
so a place is kept for later by keeping the cursor. What is read at a cursor comes back as a value
with the cursor behind it and the fact that this is a later place (`After`), or one that is no
earlier (`From`); recursion in the grammar ends because of these facts.
-/

namespace FieldShadow

/-- The tokens that are still to be read, and the stretch of the end of the sequence. -/
structure Cursor where
  pending : List Lexeme
  stop : Span
  deriving Repr

namespace Cursor

/-- At the start of a token sequence. An `eof` at its end is the end of the sequence; a sequence
without one ends at the last character of its last token. -/
def ofLexemes (lexemes : List Lexeme) : Cursor :=
  match lexemes.getLast? with
  | none => ⟨[], .at ⟨1, 1⟩⟩
  | some last =>
    if last.token = .eof then ⟨lexemes.dropLast, last.span⟩ else ⟨lexemes, .at last.span.stop⟩

/-- The number of tokens that are left. -/
def remaining (c : Cursor) : Nat :=
  c.pending.length

/-- The token at the cursor; behind the last one that is `eof`. -/
def current (c : Cursor) : Token :=
  match c.pending with
  | [] => .eof
  | lexeme :: _ => lexeme.token

/-- The stretch of the token at the cursor. -/
def span (c : Cursor) : Span :=
  match c.pending with
  | [] => c.stop
  | lexeme :: _ => lexeme.span

/-- The next place; behind the end there is none. -/
def skip (c : Cursor) : Cursor :=
  { c with pending := c.pending.tail }

/-- The token behind the one at the cursor. -/
def following (c : Cursor) : Token :=
  c.skip.current

/-- The error that a demand is not met at the cursor. -/
def fault (c : Cursor) (demand : Demand) : SyntaxError :=
  ⟨demand, c.current, c.span.start⟩

/-- A place lies behind another if fewer tokens are left. -/
abbrev Behind (d c : Cursor) : Prop :=
  d.remaining < c.remaining

/-- A place is another one or lies behind it. -/
abbrev NotBefore (d c : Cursor) : Prop :=
  d.remaining ≤ c.remaining

theorem Behind.trans {c d e : Cursor} (h : e.Behind d) (h' : d.Behind c) : e.Behind c :=
  Nat.lt_trans h h'

/-- Behind what is not before a place is behind the place. -/
theorem Behind.trans_le {c d e : Cursor} (h : e.Behind d) (h' : d.NotBefore c) :
    e.Behind c :=
  Nat.lt_of_lt_of_le h h'

/-- Not before what is not before a place is not before the place. -/
theorem NotBefore.trans {c d e : Cursor} (h : e.NotBefore d) (h' : d.NotBefore c) :
    e.NotBefore c :=
  Nat.le_trans h h'

/-- Not before what is behind a place is behind the place. -/
theorem NotBefore.trans_lt {c d e : Cursor} (h : e.NotBefore d) (h' : d.Behind c) :
    e.Behind c :=
  Nat.lt_of_le_of_lt h h'

/-- What is behind a place is not before it. -/
theorem Behind.le {c d : Cursor} (h : d.Behind c) : d.NotBefore c :=
  Nat.le_of_lt h

/-- What does not go back from further on does not go back at all. -/
theorem NotBefore.of_behind {c d e : Cursor} (h : e.NotBefore d) (h' : d.Behind c) :
    e.NotBefore c :=
  (h.trans_lt h').le

/-- A skip does not go back. -/
theorem notBefore_skip (c : Cursor) : c.skip.NotBefore c := by
  simp [skip, remaining, NotBefore]

/-- What is seen at a cursor: the end of the text, or a token and the place behind it. -/
inductive View (c : Cursor) where
  | stop
  | token (t : Token) (span : Span) (rest : Cursor) (behind : rest.Behind c)

/-- Looks at a cursor. An `eof` inside the sequence ends the text as well. -/
def view (c : Cursor) : View c :=
  match h : c.pending with
  | [] => .stop
  | lexeme :: rest =>
    if lexeme.token = .eof then .stop
    else .token lexeme.token lexeme.span ⟨rest, c.stop⟩ (by simp [Behind, remaining, h])

/-- A value, and a cursor behind `c`. -/
structure After (c : Cursor) (α : Type) where
  value : α
  rest : Cursor
  behind : rest.Behind c

/-- A value, and a cursor at or behind `c`. -/
structure From (c : Cursor) (α : Type) where
  value : α
  rest : Cursor
  notBefore : rest.NotBefore c

/-- What moved on did not move back. -/
theorem After.notBefore {c : Cursor} {α : Type} (r : After c α) : r.rest.NotBefore c :=
  r.behind.le

/-- A value at `c` itself. -/
def stay (c : Cursor) {α : Type} (value : α) : From c α :=
  ⟨value, c, Nat.le_refl _⟩

/-- A later place is no earlier place. -/
def After.toFrom {c : Cursor} {α : Type} (r : After c α) : From c α :=
  ⟨r.value, r.rest, r.behind.le⟩

/-- Reads a token if it is the given one. -/
def accept? (c : Cursor) (t : Token) : Option (After c Span) :=
  match c.view with
  | .stop => none
  | .token t' span rest h => if t' = t then some ⟨span, rest, h⟩ else none

/-- Reads the token that a mark asks for. -/
def expect (c : Cursor) (m : Mark) : Except SyntaxError (After c Span) :=
  match c.accept? m.token with
  | some r => .ok r
  | none => .error (c.fault (.mark m))

/-- Reads an identifier. -/
def name (c : Cursor) (role : NameRole) : Except SyntaxError (After c (String × Span)) :=
  match c.view with
  | .token (.identifier name) span rest h => .ok ⟨(name, span), rest, h⟩
  | _ => .error (c.fault (.name role))

end Cursor

end FieldShadow
