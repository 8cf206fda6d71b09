import FieldShadow.Proofs.Grammar.Calls

/-!
# A parser with a state

The readers of the grammar return the place behind what they read, so what was tried is taken back
by forgetting it. A parser that keeps its index, its tree and its errors in one state has to put the
index back itself. This module has the parts of that parser that are tried: its actions change the
state, and an action that fails leaves the state as it is then. Each reads what the grammar reads at
the place of the index, comes to an end, and changes nothing but the index (`State.Follows`).

## Shape of the argument

`State.Follows` speaks of an action and a reading of the grammar at the same place. If the reading
gives something, the action gives it too and only moves the index; if it fails, the action fails,
and nothing is said of where the index is then. Two rules make larger actions out of smaller ones:
one for what comes behind an action (`bind`, `bind_after`, `bind_from`) and one for a loop
(`loop_follows`), which has the same action for what is left of the tokens to go on with.

The readers of the grammar are recursive and the parser loops, with what was read so far carried
along. So the lemma about a loop is stated for any start of its accumulator, and for a counter of
brackets at any depth.
-/

namespace FieldShadow

/-- The row of a place is what is left and the end, so no row is empty and there is always a token
at the index. -/
theorem Cursor.length_row (c : Cursor) : c.row.length = c.remaining + 1 :=
  List.length_append

namespace Stateful

/-! ## States and actions -/

/-- What a parser on a row of tokens changes while it reads. -/
structure State (whole : Cursor) where
  position : Fin whole.row.length
  tree : SyntaxTree
  errors : List String

/-- A step of the parser. What it changed stays changed when it fails, and it has no result if it
does not come to an end. -/
abbrev Action (whole : Cursor) : Type → Type :=
  ExceptT SyntaxError (StateT (State whole) Option)

open Cursor (After From)

variable {whole : Cursor} {ρ σ α β : Type}

namespace State

/-- The token with the index of the parser. -/
def lexeme (s : State whole) : Lexeme :=
  whole.row.get s.position

/-- The token at a distance, at most the last one. -/
def peek (s : State whole) (ahead : Nat) : Token :=
  (whole.row.get ⟨min (s.position + ahead) (whole.row.length - 1), by omega⟩).token

/-- The same state but for the index. -/
def moved (s : State whole) (position : Fin whole.row.length) : State whole :=
  { s with position := position }

/-- The next index; the last token is never passed. -/
def next (s : State whole) : State whole :=
  if h : s.position + 1 < whole.row.length then s.moved ⟨s.position + 1, h⟩ else s

end State

/-! ## Actions on single tokens -/

/-- The token at the index. -/
def current : Action whole Token :=
  return (← get).lexeme.token

/-- The token at a distance from the index. -/
def peek (ahead : Nat) : Action whole Token :=
  return (← get).peek ahead

/-- Moves past the current token and gives its stretch. -/
def advance : Action whole Span := do
  let s ← get
  set s.next
  return s.lexeme.span

/-- Goes back to an index that was kept. -/
def rewind (checkpoint : Fin whole.row.length) : Action whole Unit :=
  modify fun s => s.moved checkpoint

/-- Fails with a demand that is not met at the index. -/
def fail (demand : Demand) : Action whole α := do
  let got := (← get).lexeme
  throw ⟨demand, got.token, got.span.start⟩

/-- Reads the token that a mark asks for. -/
def expect (m : Mark) : Action whole Span := do
  if (← current) = m.token then advance else fail (.mark m)

/-- Reads an identifier. -/
def identifier (role : NameRole) : Action whole (String × Span) := do
  match ← current with
  | .identifier name =>
    let span ← advance
    return (name, span)
  | _ => fail (.name role)

/-! ## Loops -/

/-- The rounds of a loop; when none is left the loop has no result. -/
def rounds (body : (σ → Action whole α) → σ → Action whole α) : Nat → σ → Action whole α
  | 0 => fun _ _ => none
  | n + 1 => body (rounds body n)

/-- Runs the body of a loop, which takes up the next round itself. A round that moves the index on
leaves fewer tokens, so that there are no more rounds than tokens (`loop_follows`). -/
def loop (body : (σ → Action whole α) → σ → Action whole α) (x : σ) : Action whole α :=
  fun s => rounds body (whole.row.length - s.position) x s

/-! ## What is passed over -/

/-- Passes a bracketed group, `depth` of whose brackets are open. -/
def bracketed : Nat → Action whole Unit :=
  loop fun again depth => do
    let t ← current
    if t.opens then
      let _ ← advance
      again (depth + 1)
    else if t.closes then
      let _ ← advance
      -- a bracket that closes nothing ends the group too
      if depth - 1 = 0 then return () else again (depth - 1)
    else if t = .eof then fail .balancedBrackets
    else
      let _ ← advance
      again depth

/-- Passes type arguments, `depth` of whose angle brackets are open. -/
def typeArguments : Nat → Action whole Unit :=
  loop fun again depth => do
    let t ← current
    if t = .less then
      let _ ← advance
      again (depth + 1)
    else if t = .greater then
      let _ ← advance
      if depth - 1 = 0 then return () else again (depth - 1)
    else if Cursor.inTypeArguments t then
      let _ ← advance
      again depth
    else fail .typeArguments

/-- Passes type arguments if they stand here. -/
def typeArguments? : Action whole Unit := do
  if (← current) = .less then typeArguments 0

/-- Passes the further parts of a qualified name. -/
def qualifiers : Unit → Action whole Unit :=
  loop fun again _ => do
    match ← current, ← peek 1 with
    | .dot, .identifier _ =>
      let _ ← advance
      let _ ← advance
      again ()
    | _, _ => return ()

/-- Passes one annotation. -/
def annotationUse : Action whole Unit := do
  let _ ← expect .annotationSign
  let _ ← identifier .annotationType
  qualifiers ()
  if (← current) = .leftParen then bracketed 0

/-- Passes all annotations that stand here. -/
def annotationUses : Unit → Action whole Unit :=
  loop fun again _ => do
    if (← current) = .at then
      annotationUse
      again ()

/-! ## Modifiers and types -/

/-- Reads modifiers behind those that were read, and passes the annotations between them. -/
def modifiers : List Modifier → Action whole (List Modifier) :=
  loop fun again read => do
    match ← current, ← peek 1 with
    | .modifier m, following =>
      if Cursor.standsAsModifier m following then
        let _ ← advance
        again (read ++ [m])
      else return read
    | .at, following =>
      if following = .keyword .interface then return read
      else
        annotationUse
        again read
    | _, _ => return read

/-- Reads the array dimensions behind a type. -/
def dimensions : TypeRef → Action whole TypeRef :=
  loop fun again type => do
    match ← current, ← peek 1 with
    | .leftBracket, .rightBracket =>
      let _ ← advance
      let _ ← advance
      again (.array type)
    | _, _ => return type

/-- Reads the further parts of the name of a type. -/
def qualifiedName : String → Action whole String :=
  loop fun again name => do
    match ← current, ← peek 1 with
    | .dot, .identifier part =>
      let _ ← advance
      let _ ← advance
      typeArguments?
      again (name ++ "." ++ part)
    | _, _ => return name

/-- Reads a type. -/
def typeRef : Action whole TypeRef := do
  annotationUses ()
  match ← current with
  | .keyword .void =>
    let _ ← advance
    dimensions .void
  | .identifier name =>
    let _ ← advance
    typeArguments?
    let full ← qualifiedName name
    dimensions (.ofName full)
  | _ => fail .type

/-! ## The place of a state -/

namespace State

variable {s s' : State whole}

/-- The cursor with the tokens from the index on. -/
def place (s : State whole) : Cursor :=
  ⟨whole.pending.drop s.position, whole.stop⟩

/-- The place of a state is the one that its index names in the row. -/
theorem isAt_place (s : State whole) : s.place.IsAt whole.row s.position := by
  have hlength := whole.length_row
  have hle : s.position ≤ whole.remaining := by omega
  exact List.drop_append_of_le_length hle

/-- The token at the index is the one that the place shows, also at the end of the row. -/
theorem lexeme_eq (s : State whole) : s.lexeme = ⟨s.place.current, s.place.span⟩ := by
  have hget := s.isAt_place.getElem?
  rw [List.getElem?_eq_getElem s.position.isLt] at hget
  exact Option.some.inj hget

/-- One token ahead of the index is what follows at the place; behind the end both give the end. -/
theorem peek_one (s : State whole) : s.peek 1 = s.place.following := by
  have hget := s.isAt_place.skip.getElem?
  have hlt : min (s.position.val + 1) (whole.row.length - 1) < whole.row.length := by omega
  rw [List.getElem?_eq_getElem hlt] at hget
  exact congrArg Lexeme.token (Option.some.inj hget)

/-- An advance changes the index and nothing else. -/
theorem exists_next_eq (s : State whole) : ∃ p, s.next = s.moved p := by
  unfold next
  split
  · exact ⟨_, rfl⟩
  · exact ⟨s.position, rfl⟩

/-- An advance of the index is a skip of the place. At the end both stay. -/
theorem place_next (s : State whole) : s.next.place = s.place.skip := by
  have htail : s.place.skip = ⟨whole.pending.drop (s.position + 1), whole.stop⟩ := by
    simp only [place, Cursor.skip, List.tail_drop]
  rw [htail]
  unfold next
  split
  · rfl
  · next hlt =>
    have hlength := whole.length_row
    have hlast : whole.pending.length ≤ s.position := by
      unfold Cursor.remaining at hlength
      omega
    rw [place, List.drop_of_length_le hlast, List.drop_of_length_le (Nat.le_succ_of_le hlast)]

/-- A later place has a greater index. -/
theorem position_lt (h : s'.place.Behind s.place) : s.position < s'.position := by
  have hlength := s.isAt_place.length_eq
  have hlength' := s'.isAt_place.length_eq
  have hbehind : s'.place.remaining < s.place.remaining := h
  rw [Fin.lt_def]
  omega

/-- What a reader compares at the index is what it compares at the place. -/
theorem token_eq {c : Cursor} (hs : s.place = c) : s.lexeme.token = c.current := by
  rw [lexeme_eq, hs]

/-- What a reader looks ahead at is the same on both sides. -/
theorem peek_eq {c : Cursor} (hs : s.place = c) : s.peek 1 = c.following := by
  rw [peek_one, hs]

/-- The token at the index when one is seen at the place. -/
theorem token_of_view {c d : Cursor} {t : Token} {span : Span} {h : d.Behind c}
    (hs : s.place = c) (hview : c.view = .token t span d h) : s.lexeme.token = t :=
  (token_eq hs).trans (Cursor.current_of_view hview)

/-- The advanced state stands where the seen token ends. -/
theorem next_of_view {c d : Cursor} {t : Token} {span : Span} {h : d.Behind c}
    (hs : s.place = c) (hview : c.view = .token t span d h) : s.next.place = d := by
  rw [place_next, hs, Cursor.skip_of_view hview]

/-- The stretch that an advance gives is the one of the seen token. -/
theorem span_of_view {c d : Cursor} {t : Token} {span : Span} {h : d.Behind c}
    (hs : s.place = c) (hview : c.view = .token t span d h) : s.lexeme.span = span := by
  obtain ⟨-, rfl⟩ := Cursor.eq_cons_of_view hview
  rw [lexeme_eq, hs]
  rfl

/-- Where nothing is left, the token at the index is the end. -/
theorem token_of_view_stop {c : Cursor} (hs : s.place = c) (hview : c.view = .stop) :
    s.lexeme.token = .eof :=
  (token_eq hs).trans (Cursor.current_of_view_stop hview)

/-- One ahead of a seen token stands what is current behind it. -/
theorem peek_of_view {c d : Cursor} {t : Token} {span : Span} {h : d.Behind c}
    (hs : s.place = c) (hview : c.view = .token t span d h) : s.peek 1 = d.current := by
  rw [peek_eq hs, Cursor.following, ← Cursor.skip_of_view hview]

/-- A token other than the end that stands at the index is seen at the place, and is passed by an
advance. -/
theorem exists_view {c : Cursor} {t : Token} (hs : s.place = c) (h : s.lexeme.token = t)
    (ht : t ≠ .eof) :
    ∃ span d h, c.view = .token t span d h ∧ s.next.place = d := by
  cases hview : c.view with
  | stop => exact absurd (h.symm.trans (token_of_view_stop hs hview)) ht
  | token t' span d hd =>
    obtain rfl := (token_of_view hs hview).symm.trans h
    exact ⟨span, d, hd, rfl, next_of_view hs hview⟩

/-- What stands at the index and behind it is seen at the place and behind it. -/
theorem exists_views {c : Cursor} {t t' : Token} (hs : s.place = c) (h : s.lexeme.token = t)
    (h' : s.peek 1 = t') (ht : t ≠ .eof) (ht' : t' ≠ .eof) :
    ∃ span d hd span' e he, c.view = .token t span d hd ∧ d.view = .token t' span' e he ∧
      s.next.next.place = e := by
  obtain ⟨span, d, hd, hview, hs'⟩ := exists_view hs h ht
  have hcurrent : s.next.lexeme.token = t' := by
    rw [token_eq hs', ← h', peek_of_view hs hview]
  obtain ⟨span', e, he, hview', hs''⟩ := exists_view hs' hcurrent ht'
  exact ⟨span, d, hd, span', e, he, hview, hview', hs''⟩

/-- The second of two tokens that are seen behind each other stands one ahead of the first. -/
theorem peek_of_views {c d e : Cursor} {t t' : Token} {span span' : Span} {hd : d.Behind c}
    {he : e.Behind d} (hs : s.place = c) (hview : c.view = .token t span d hd)
    (hview' : d.view = .token t' span' e he) : s.peek 1 = t' :=
  (peek_of_view hs hview).trans (Cursor.current_of_view hview')

/-- What a run comes to if it gives what a reader of the grammar gives: it ends at the same place
with the same value, or with the same error, and of the state it only moved the index. -/
inductive Outcome (s : State whole) (rest : ρ → Cursor) (value : ρ → α) :
    Except SyntaxError ρ → Option (Except SyntaxError α × State whole) → Prop
  | ends {r : ρ} {p : Fin whole.row.length} (place : (s.moved p).place = rest r) :
      s.Outcome rest value (.ok r) (some (.ok (value r), s.moved p))
  | fails (e : SyntaxError) (p : Fin whole.row.length) :
      s.Outcome rest value (.error e) (some (.error e, s.moved p))

/-- From this state an action reads what a reader of the grammar reads. -/
def Follows (s : State whole) (rest : ρ → Cursor) (value : ρ → α) (a : Except SyntaxError ρ)
    (m : Action whole α) : Prop :=
  s.Outcome rest value a (m s)

end State

/-! ## Composed actions -/

section

variable {s : State whole}

/-- An action that gives a value goes on with it from the state it left. -/
theorem bind_of_ok {m : Action whole α} {a : α} {s' : State whole} (h : m s = some (.ok a, s'))
    (g : α → Action whole β) : (m >>= g) s = g a s' := by
  change Option.bind (m s) _ = _
  rw [h]
  rfl

/-- An action that fails ends the whole, and the state stays as it was left: nothing is taken back.
-/
theorem bind_of_error {m : Action whole α} {e : SyntaxError} {s' : State whole}
    (h : m s = some (.error e, s')) (g : α → Action whole β) :
    (m >>= g) s = some (.error e, s') := by
  change Option.bind (m s) _ = _
  rw [h]
  rfl

/-- Two runs that come to the same go on alike. -/
theorem bind_of_run_eq {m m' : Action whole α} {s' : State whole} (h : m s = m' s')
    (g : α → Action whole β) : (m >>= g) s = (m' >>= g) s' := by
  change Option.bind (m s) _ = Option.bind (m' s') _
  rw [h]

/-- A run that ends well began with a step that did. -/
theorem exists_of_bind {m : Action whole α} {g : α → Action whole β} {b : β} {s' : State whole}
    (h : (m >>= g) s = some (.ok b, s')) :
    ∃ a s₁, m s = some (.ok a, s₁) ∧ g a s₁ = some (.ok b, s') := by
  obtain ⟨⟨result, s₁⟩, hrun, hrest⟩ := Option.bind_eq_some_iff.mp h
  cases result with
  | ok a => exact ⟨a, s₁, hrun, hrest⟩
  | error e => cases hrest

/-- A failure names the token and the place at the index and changes nothing. -/
theorem fail_eq (s : State whole) (demand : Demand) :
    (fail demand : Action whole α) s = some (.error (s.place.fault demand), s) := by
  have hrun : (fail demand : Action whole α) s =
      some (.error ⟨demand, s.lexeme.token, s.lexeme.span.start⟩, s) := rfl
  rw [hrun, s.lexeme_eq]
  rfl

end

/-- An outcome from an advanced state is an outcome from the state itself, since only the index
differs. -/
theorem State.Outcome.of_moved {s : State whole} {rest : ρ → Cursor} {value : ρ → α}
    {a : Except SyntaxError ρ} {p : Fin whole.row.length}
    {run : Option (Except SyntaxError α × State whole)}
    (h : (s.moved p).Outcome rest value a run) : s.Outcome rest value a run := by
  cases h with
  | ends place => exact .ends place
  | fails e q => exact .fails e q

namespace State.Follows

variable {s : State whole} {c : Cursor} {rest : ρ → Cursor} {value : ρ → α} {rest' : σ → Cursor}
  {value' : σ → β} {a : Except SyntaxError ρ}

/-- Looking at the current token changes nothing, so what follows is judged from the same state. -/
theorem of_current {g : Token → Action whole α} (h : s.Follows rest value a (g s.lexeme.token)) :
    s.Follows rest value a (current >>= g) :=
  h

/-- Looking ahead changes nothing either. -/
theorem of_peek {ahead : Nat} {g : Token → Action whole α}
    (h : s.Follows rest value a (g (s.peek ahead))) :
    s.Follows rest value a (Stateful.peek ahead >>= g) :=
  h

/-- An advance is made on both sides; what follows is judged from the advanced state. -/
theorem of_advance {g : Span → Action whole α}
    (h : s.next.Follows rest value a (g s.lexeme.span)) :
    s.Follows rest value a (advance >>= g) := by
  obtain ⟨p, hp⟩ := s.exists_next_eq
  have hrun : (advance >>= g) s = g s.lexeme.span (s.moved p) := congrArg _ hp
  rw [hp] at h
  rw [Follows, hrun]
  exact h.of_moved

/-- The steps after a step that follows a reader. -/
theorem bind {f : ρ → Except SyntaxError σ} {m : Action whole α} {g : α → Action whole β}
    (h : s.Follows rest value a m)
    (hok : ∀ (r : ρ) (s' : State whole), s'.place = rest r →
      s'.Follows rest' value' (f r) (g (value r))) :
    s.Follows rest' value' (a >>= f) (m >>= g) := by
  rw [Follows] at h ⊢
  generalize hrun : m s = run at h
  cases h with
  | ends place =>
    rw [bind_of_ok hrun]
    exact (hok _ _ place).of_moved
  | fails e p =>
    rw [bind_of_error hrun]
    exact .fails e p

/-- The steps after a reader that consumes a token. -/
theorem bind_after {a : Except SyntaxError (After c α)} {f : After c α → Except SyntaxError σ}
    {m : Action whole α} {g : α → Action whole β} (h : s.Follows After.rest After.value a m)
    (hok : ∀ v c₁ h₁ (s' : State whole), s'.place = c₁ →
      s'.Follows rest' value' (f ⟨v, c₁, h₁⟩) (g v)) :
    s.Follows rest' value' (a >>= f) (m >>= g) :=
  h.bind fun r s' hs' => hok r.value r.rest r.behind s' hs'

/-- The steps after a reader that need not consume a token. -/
theorem bind_from {a : Except SyntaxError (From c α)} {f : From c α → Except SyntaxError σ}
    {m : Action whole α} {g : α → Action whole β} (h : s.Follows From.rest From.value a m)
    (hok : ∀ v c₁ h₁ (s' : State whole), s'.place = c₁ →
      s'.Follows rest' value' (f ⟨v, c₁, h₁⟩) (g v)) :
    s.Follows rest' value' (a >>= f) (m >>= g) :=
  h.bind fun r s' hs' => hok r.value r.rest r.notBefore s' hs'

/-- The steps after a step that follows a reader which never fails. -/
theorem andThen {r : ρ} {b : Except SyntaxError σ} {m : Action whole α} {g : α → Action whole β}
    (h : s.Follows rest value (.ok r) m)
    (hok : ∀ s' : State whole, s'.place = rest r → s'.Follows rest' value' b (g (value r))) :
    s.Follows rest' value' b (m >>= g) := by
  rw [Follows] at h ⊢
  generalize hrun : m s = run at h
  cases h with
  | ends place =>
    rw [bind_of_ok hrun]
    exact (hok _ place).of_moved

/-- A reader that never fails, with the same place and value. -/
theorem ok_congr {r : ρ} {r' : σ} {value' : σ → α} {m : Action whole α}
    (h : s.Follows rest value (.ok r) m) (hrest : rest' r' = rest r)
    (hvalue : value' r' = value r) : s.Follows rest' value' (.ok r') m := by
  rw [Follows] at h ⊢
  generalize m s = run at h
  cases h with
  | ends place =>
    rw [← hvalue]
    exact .ends (place.trans hrest.symm)

/-- A last step follows a reader whose result is only carried on. -/
theorem carried {value' : σ → α} {f : ρ → Except SyntaxError σ} {m : Action whole α}
    (h : s.Follows rest value a m)
    (hok : ∀ r, ∃ r', f r = .ok r' ∧ rest' r' = rest r ∧ value' r' = value r) :
    s.Follows rest' value' (a >>= f) m := by
  cases a with
  | ok r =>
    obtain ⟨r', hr', hrest, hvalue⟩ := hok r
    change s.Follows rest' value' (f r) m
    rw [hr']
    exact h.ok_congr hrest hvalue
  | error e =>
    rw [Follows] at h ⊢
    generalize m s = run at h
    cases h with
    | fails e p => exact .fails e p

/-- An action that ends at once has read what the reader has read if the places and the values
agree. -/
theorem done {r : ρ} {v : α} (hs : s.place = rest r) (hv : value r = v) :
    s.Follows rest value (.ok r) (pure v) := by
  obtain rfl := hv
  exact .ends (s := s) (p := s.position) hs

/-- A demand that is not met at the index is not met at the place, with the same error. -/
theorem failed (hs : s.place = c) (demand : Demand) :
    s.Follows rest value (.error (c.fault demand)) (fail demand) := by
  rw [Follows, fail_eq, hs]
  exact .fails _ s.position

/-- A reader that moves on may be taken for one that may stand still. -/
theorem toFrom {a : Except SyntaxError (After c α)} {m : Action whole α}
    (h : s.Follows After.rest After.value a m) :
    s.Follows From.rest From.value (a.map After.toFrom) m :=
  h.carried (f := fun r => .ok r.toFrom) fun _ => ⟨_, rfl, rfl, rfl⟩

end State.Follows

/-! ## What the actions read -/

open State

section

variable {s : State whole} {c : Cursor}

/-- A mark is read as at the place: it is passed where it stands, and demanded where it does not. -/
theorem expect_follows (hs : s.place = c) (m : Mark) :
    s.Follows After.rest After.value (c.expect m) (expect m) := by
  refine .of_current ?_
  unfold Cursor.expect Cursor.accept?
  cases hview : c.view with
  | stop =>
    have hne : s.lexeme.token ≠ m.token := by
      rw [token_of_view_stop hs hview]
      cases m <;> simp [Mark.token]
    rw [if_neg hne]
    exact .failed hs _
  | token t span d h =>
    dsimp only
    rw [token_of_view hs hview]
    by_cases ht : t = m.token
    · rw [if_pos ht, if_pos ht]
      exact .of_advance (.done (next_of_view hs hview) (span_of_view hs hview).symm)
    · rw [if_neg ht, if_neg ht]
      exact .failed hs _

/-- A name is read as at the place, with its stretch. -/
theorem identifier_follows (hs : s.place = c) (role : NameRole) :
    s.Follows After.rest After.value (c.name role) (identifier role) := by
  refine .of_current ?_
  split
  · next name htoken =>
    obtain ⟨span, d, h, hview, hs'⟩ := exists_view hs htoken (by simp)
    rw [Cursor.name, hview]
    exact .of_advance (.done hs' (congrArg _ (span_of_view hs hview).symm))
  · next hne =>
    unfold Cursor.name
    split
    · next hview => exact (hne _ (token_of_view hs hview)).elim
    · exact .failed hs _

/-- What a round of a loop comes to whenever the rounds behind it do, the loop comes to. The rounds
may be about values in one form and the loop keep them in another. -/
theorem loop_induction {τ : Type} {body : (σ → Action whole α) → σ → Action whole α} (form : τ → σ)
    {P : Cursor → State whole → τ → Option (Except SyntaxError α × State whole) → Prop}
    (hbody : ∀ (c : Cursor) (s : State whole) (x : τ) (again : σ → Action whole α), s.place = c →
      (∀ (d : Cursor) (s' : State whole) (y : τ), s'.place = d → d.Behind c →
        P d s' y (again (form y) s')) → P c s x (body again (form x) s))
    {c : Cursor} {s : State whole} (hs : s.place = c) (x : τ) : P c s x (loop body (form x) s) := by
  have hrounds (n : Nat) {c : Cursor} {s : State whole} {x : τ} (hs : s.place = c)
      (hn : c.remaining < n) : P c s x (rounds body n (form x) s) := by
    induction n generalizing c s x with
    | zero => exact absurd hn (Nat.not_lt_zero _)
    | succ n ih =>
      rw [rounds]
      refine hbody c s x _ hs fun d s' y hs' hd => ih hs' ?_
      exact Nat.lt_of_lt_of_le hd (Nat.le_of_lt_succ hn)
  have hlength := s.isAt_place.length_eq
  rw [hs] at hlength
  exact hrounds _ hs (by omega)

/-- A loop follows a reader if a round of it does whenever the rounds behind it do. -/
theorem loop_follows {body : (σ → Action whole α) → σ → Action whole α} {ρ : Cursor → Type}
    (rest : ∀ c, ρ c → Cursor) (value : ∀ c, σ → ρ c → α)
    (read : ∀ c, σ → Except SyntaxError (ρ c))
    (hbody : ∀ (c : Cursor) (s : State whole) (x : σ) (again : σ → Action whole α), s.place = c →
      (∀ (d : Cursor) (s' : State whole) (y : σ), s'.place = d → d.Behind c →
        s'.Follows (rest d) (value d y) (read d y) (again y)) →
      s.Follows (rest c) (value c x) (read c x) (body again x))
    {c : Cursor} {s : State whole} (hs : s.place = c) (x : σ) :
    s.Follows (rest c) (value c x) (read c x) (loop body x) :=
  loop_induction id
    (P := fun c s x run => s.Outcome (rest c) (value c x) (read c x) run) hbody hs x

/-- A bracketed group is passed to the same place, at every depth. The loop is followed by induction
on the tokens that are left. -/
theorem bracketed_follows (hs : s.place = c) (depth : Nat) :
    s.Follows After.rest After.value (c.bracketed depth) (bracketed depth) := by
  refine loop_follows (fun _ => After.rest) (fun _ _ => After.value) Cursor.bracketed
    (fun c s depth again hs hagain => .of_current ?_) hs depth
  rw [Cursor.bracketed]
  split
  · next hview =>
    rw [token_of_view_stop hs hview]
    exact .failed hs _
  · next t _ c₁ h₁ hview =>
    -- behind this token the loop goes on at some depth, whatever the token does to it
    have hmore (depth' : Nat) := hagain _ _ depth' (next_of_view hs hview) h₁
    have heof := (Cursor.eq_cons_of_view hview).1
    rw [token_of_view hs hview]
    by_cases hopens : t.opens
    · -- no token opens and closes at once
      have hcloses : t.closes = false := by cases t <;> first | rfl | exact nomatch hopens
      simp only [hopens, hcloses, if_true, Bool.false_and, Bool.false_eq_true, if_false]
      exact .of_advance ((hmore _).carried fun r => ⟨_, rfl, rfl, rfl⟩)
    · by_cases hcloses : t.closes
      · simp only [hopens, hcloses, if_true, Bool.true_and, decide_eq_true_eq, if_false,
          Bool.false_eq_true]
        refine .of_advance ?_
        -- subtraction stops at zero, so depth one and depth zero end the same way
        by_cases hdepth : depth ≤ 1
        · rw [if_pos hdepth, if_pos (Nat.sub_eq_zero_of_le hdepth)]
          exact .done (next_of_view hs hview) rfl
        · rw [if_neg hdepth, if_neg (by omega)]
          exact (hmore _).carried fun r => ⟨_, rfl, rfl, rfl⟩
      · simp only [hopens, hcloses, heof, if_false, Bool.false_and, Bool.false_eq_true]
        exact .of_advance ((hmore _).carried fun r => ⟨_, rfl, rfl, rfl⟩)

/-- Type arguments are passed as at the place, with the depth of the angle brackets as the state of
the loop. -/
theorem typeArguments_follows (hs : s.place = c) (depth : Nat) :
    s.Follows After.rest After.value (c.typeArguments depth) (typeArguments depth) := by
  refine loop_follows (fun _ => After.rest) (fun _ _ => After.value) Cursor.typeArguments
    (fun c s depth again hs hagain => .of_current ?_) hs depth
  rw [Cursor.typeArguments]
  split
  · next hview =>
    rw [token_of_view_stop hs hview]
    exact .failed hs _
  · next t _ c₁ h₁ hview =>
    have hmore (depth' : Nat) := hagain _ _ depth' (next_of_view hs hview) h₁
    rw [token_of_view hs hview]
    -- angles change the depth; whatever else may stand in type arguments leaves it
    by_cases hless : t = .less
    · obtain rfl := hless
      exact .of_advance ((hmore _).carried fun r => ⟨_, rfl, rfl, rfl⟩)
    · by_cases hgreater : t = .greater
      · obtain rfl := hgreater
        simp only [reduceCtorEq, true_and, if_false, if_true, true_or, or_true]
        refine .of_advance ?_
        by_cases hdepth : depth ≤ 1
        · rw [if_pos hdepth, if_pos (Nat.sub_eq_zero_of_le hdepth)]
          exact .done (next_of_view hs hview) rfl
        · rw [if_neg hdepth, if_neg (by omega)]
          exact (hmore _).carried fun r => ⟨_, rfl, rfl, rfl⟩
      · simp only [hless, hgreater, false_and, false_or, if_false]
        split
        · exact .of_advance ((hmore _).carried fun r => ⟨_, rfl, rfl, rfl⟩)
        · exact .failed hs _

/-- Type arguments that may be missing are passed if they begin at the place. -/
theorem typeArguments?_follows (hs : s.place = c) :
    s.Follows From.rest From.value c.typeArguments? typeArguments? := by
  refine .of_current ?_
  rw [token_eq hs, Cursor.typeArguments?]
  split
  · exact (typeArguments_follows hs 0).toFrom
  · exact .done hs rfl

/-- The qualifiers behind a name are passed as at the place; passing them cannot fail. -/
theorem qualifiers_follows (hs : s.place = c) :
    s.Follows From.rest From.value (.ok c.qualifiers) (qualifiers ()) := by
  refine loop_follows (fun _ => From.rest) (fun _ _ => From.value) (fun c _ => .ok c.qualifiers)
    (fun c s _ again hs hagain => .of_current (.of_peek ?_)) hs ()
  split
  · next htoken hpeek =>
    obtain ⟨_, c₁, h₁, _, c₂, h₂, hview, hview₁, hs₂⟩ :=
      exists_views hs htoken hpeek (by simp) (by simp)
    rw [Cursor.qualifiers, hview]
    dsimp only
    rw [hview₁]
    exact .of_advance (.of_advance ((hagain c₂ _ () hs₂ (h₂.trans h₁)).ok_congr rfl rfl))
  · next hne =>
    rw [Cursor.qualifiers]
    split
    · next hview =>
      split
      · next hview₁ =>
        exact (hne _ (token_of_view hs hview) (peek_of_views hs hview hview₁)).elim
      · exact .done hs rfl
    · exact .done hs rfl

/-- An annotation is passed with its name and its group, if it has one. -/
theorem annotationUse_follows (hs : s.place = c) :
    s.Follows After.rest After.value c.annotationUse annotationUse := by
  refine (expect_follows hs _).bind_after fun _ c₁ h₁ s₁ hs₁ => ?_
  refine (identifier_follows hs₁ _).bind_after fun _ c₂ h₂ s₂ hs₂ => ?_
  refine (qualifiers_follows hs₂).andThen fun s₃ hs₃ => .of_current ?_
  rw [token_eq hs₃]
  dsimp only
  generalize c₂.qualifiers = qualifiers at hs₃ ⊢
  obtain ⟨_, c₃, h₃⟩ := qualifiers
  dsimp only
  split
  · exact (bracketed_follows hs₃ 0).carried fun r => ⟨_, rfl, rfl, rfl⟩
  · exact .done hs₃ rfl

/-- Annotations are passed as long as one begins. -/
theorem annotationUses_follows (hs : s.place = c) :
    s.Follows From.rest From.value c.annotationUses (annotationUses ()) := by
  refine loop_follows (fun _ => From.rest) (fun _ _ => From.value) (fun c _ => c.annotationUses)
    (fun c s _ again hs hagain => .of_current ?_) hs ()
  rw [Cursor.annotationUses, token_eq hs]
  split
  · refine (annotationUse_follows hs).bind_after fun _ c₁ h₁ s₁ hs₁ => ?_
    exact (hagain c₁ s₁ () hs₁ h₁).carried fun r => ⟨_, rfl, rfl, rfl⟩
  · exact .done hs rfl

/-- Modifiers are gathered behind those that were read, so the value is that of the reader behind a
prefix. -/
theorem modifiers_follows (hs : s.place = c) (read : List Modifier) :
    s.Follows From.rest (fun r => read ++ r.value) c.modifiers (modifiers read) := by
  refine loop_follows (fun _ => From.rest) (fun _ read r => read ++ r.value)
    (fun c _ => c.modifiers) (fun c s read again hs hagain => .of_current (.of_peek ?_)) hs read
  -- nothing more is read: the loop gives what it has gathered
  have hstop : s.Follows From.rest (fun r => read ++ r.value) (.ok (c.stay []))
      (pure read) := .done hs (List.append_nil read)
  rw [Cursor.modifiers]
  split
  · next m _ c₁ h₁ hview =>
    have hs₁ := next_of_view hs hview
    rw [token_of_view hs hview, peek_of_view hs hview]
    dsimp only
    split
    · refine .of_advance ((hagain c₁ _ (read ++ [m]) hs₁ h₁).carried fun r => ?_)
      exact ⟨_, rfl, rfl, by simp⟩
    · exact hstop
  · next hview =>
    rw [token_of_view hs hview, peek_eq hs]
    dsimp only
    split
    · exact hstop
    · refine (annotationUse_follows hs).bind_after fun _ c₁ h₁ s₁ hs₁ => ?_
      exact (hagain c₁ s₁ read hs₁ h₁).carried fun r => ⟨_, rfl, rfl, rfl⟩
  · -- neither a modifier nor an annotation
    next hmodifier hat =>
    split
    · next htoken =>
      obtain ⟨_, _, _, hview, -⟩ := exists_view hs htoken (by simp)
      exact (hmodifier _ _ _ _ hview).elim
    · next htoken =>
      obtain ⟨_, _, _, hview, -⟩ := exists_view hs htoken (by simp)
      exact (hat _ _ _ hview).elim
    · exact hstop

/-- Pairs of brackets wrap the type on both sides in the same order, and cannot fail. -/
theorem dimensions_follows (hs : s.place = c) (type : TypeRef) :
    s.Follows From.rest From.value (.ok (c.dimensions type)) (dimensions type) := by
  refine loop_follows (fun _ => From.rest) (fun _ _ => From.value)
    (fun c type => .ok (c.dimensions type))
    (fun c s type again hs hagain => .of_current (.of_peek ?_)) hs type
  split
  · next htoken hpeek =>
    obtain ⟨_, c₁, h₁, _, c₂, h₂, hview, hview₁, hs₂⟩ :=
      exists_views hs htoken hpeek (by simp) (by simp)
    rw [Cursor.dimensions, hview]
    dsimp only
    rw [hview₁]
    exact .of_advance (.of_advance ((hagain c₂ _ _ hs₂ (h₂.trans h₁)).ok_congr rfl rfl))
  · -- a bracket that is not closed at once is not read by either
    next hne =>
    rw [Cursor.dimensions]
    split
    · next hview =>
      split
      · next hview₁ =>
        exact (hne (token_of_view hs hview) (peek_of_views hs hview hview₁)).elim
      · exact .done hs rfl
    · exact .done hs rfl

/-- A qualified name is put together with its dots as at the place. -/
theorem qualifiedName_follows (hs : s.place = c) (name : String) :
    s.Follows From.rest From.value (c.qualifiedName name) (qualifiedName name) := by
  refine loop_follows (fun _ => From.rest) (fun _ _ => From.value) Cursor.qualifiedName
    (fun c s name again hs hagain => .of_current (.of_peek ?_)) hs name
  split
  · next htoken hpeek =>
    obtain ⟨_, c₁, h₁, _, c₂, h₂, hview, hview₁, hs₂⟩ :=
      exists_views hs htoken hpeek (by simp) (by simp)
    rw [Cursor.qualifiedName, hview]
    dsimp only
    rw [hview₁]
    refine .of_advance (.of_advance ?_)
    refine (typeArguments?_follows hs₂).bind_from fun _ c₃ h₃ s₃ hs₃ => ?_
    have hbehind : c₃.Behind c := (h₃.trans_lt h₂).trans h₁
    exact (hagain c₃ s₃ _ hs₃ hbehind).carried fun r => ⟨_, rfl, rfl, rfl⟩
  · next hne =>
    rw [Cursor.qualifiedName]
    split
    · next hview =>
      split
      · next hview₁ =>
        exact (hne _ (token_of_view hs hview) (peek_of_views hs hview hview₁)).elim
      · exact .done hs rfl
    · exact .done hs rfl

/-- A type is read as at the place: annotations, a word or a name, its arguments, its dimensions. -/
theorem typeRef_follows (hs : s.place = c) :
    s.Follows After.rest After.value c.typeRef typeRef := by
  refine (annotationUses_follows hs).bind_from fun _ c₁ h₁ s₁ hs₁ => .of_current ?_
  dsimp only
  split
  · next hview =>
    rw [token_of_view hs₁ hview]
    exact .of_advance ((dimensions_follows (next_of_view hs₁ hview) _).ok_congr rfl rfl)
  · next hview =>
    rw [token_of_view hs₁ hview]
    refine .of_advance ?_
    refine (typeArguments?_follows (next_of_view hs₁ hview)).bind_from fun _ c₃ h₃ s₃ hs₃ => ?_
    refine (qualifiedName_follows hs₃ _).bind_from fun full c₄ h₄ s₄ hs₄ => ?_
    exact (dimensions_follows hs₄ _).ok_congr rfl rfl
  · next hvoid hname =>
    split
    · next htoken =>
      obtain ⟨_, _, _, hview, -⟩ := exists_view hs₁ htoken (by simp)
      exact (hvoid _ _ _ hview).elim
    · next htoken =>
      obtain ⟨_, _, _, hview, -⟩ := exists_view hs₁ htoken (by simp)
      exact (hname _ _ _ _ hview).elim
    · exact .failed hs₁ _

end

end Stateful

end FieldShadow
