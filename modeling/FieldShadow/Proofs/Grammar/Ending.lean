import FieldShadow.Proofs.Grammar.Attempt

/-!
# Where an expression ends

While an expression is passed over, one counter is kept for the brackets of all three kinds. The
expression ends at the first token that is a terminator or a closing bracket while no bracket is
open (`Cursor.Ends`). If no object is created in front of it the reader stops there with nothing
read, and if an `eof` comes before it the reader fails (`Stateful.stops_at_first_end`).

The parser with a state counts in integers here, so that only its own tests keep the counter from
going below zero. That it never does is an invariant of its rounds (`Stateful.depth_nonneg`). The
reader of the grammar counts in natural numbers and gives the same (`Stateful.grafts_expression`).
-/

namespace FieldShadow

namespace Cursor

/-! ## Open brackets -/

/-- The brackets that tokens open less those that they close. Brackets of all three kinds count
alike. -/
def nesting (tokens : List Token) : Int :=
  tokens.countP Token.opens - tokens.countP Token.closes

/-- The number of open brackets behind a token. -/
def depthBehind (t : Token) (depth : Nat) : Nat :=
  if t.opens then depth + 1 else if t.closes then depth - 1 else depth

@[simp]
theorem nesting_nil : nesting [] = 0 :=
  rfl

/-- Brackets of two rows count together. -/
theorem nesting_append (ts ts' : List Token) :
    nesting (ts ++ ts') = nesting ts + nesting ts' := by
  simp only [nesting, List.countP_append]
  omega

theorem nesting_singleton (t : Token) :
    nesting [t] = (if t.opens then 1 else 0) - (if t.closes then 1 else 0) := by
  rw [nesting, List.countP_singleton, List.countP_singleton]
  cases t.opens <;> cases t.closes <;> rfl

/-! ## Ends of an expression -/

/-- With so many open brackets an expression ends at this token: none is open, and the token is a
terminator or a closing bracket. -/
def EndsAt (terminators : List Token) (depth : Int) (t : Token) : Prop :=
  depth = 0 ∧ (t ∈ terminators ∨ t.closes)

/-- The tokens of the row from an index on and in front of another. -/
def between (whole : Cursor) (start stop : Nat) : List Token :=
  ((whole.row.take stop).drop start).map Lexeme.token

/-- An expression that begins at an index may end at another, by the brackets between them and the
token there. -/
structure MayEnd (whole : Cursor) (terminators : List Token) (start i : Fin whole.row.length) :
    Prop where
  start_le : start ≤ i
  endsAt : EndsAt terminators (nesting (whole.between start i)) (whole.row.get i).token

/-- The index is the first at which the expression may end. -/
structure Ends (whole : Cursor) (terminators : List Token) (start i : Fin whole.row.length) : Prop
    extends whole.MayEnd terminators start i where
  first : ∀ j < i, ¬ whole.MayEnd terminators start j

section

variable {whole : Cursor} {terminators : List Token} {start i : Fin whole.row.length}

instance (depth : Int) (t : Token) : Decidable (EndsAt terminators depth t) :=
  inferInstanceAs (Decidable (_ ∧ _))

instance : Decidable (whole.MayEnd terminators start i) :=
  decidable_of_iff (start ≤ i ∧
    EndsAt terminators (nesting (whole.between start i)) (whole.row.get i).token)
    ⟨fun h => ⟨h.1, h.2⟩, fun h => ⟨h.start_le, h.endsAt⟩⟩

instance : Decidable (whole.Ends terminators start i) :=
  decidable_of_iff (whole.MayEnd terminators start i ∧
    ∀ j < i, ¬ whole.MayEnd terminators start j)
    ⟨fun h => ⟨h.1, h.2⟩, fun h => ⟨h.toMayEnd, h.first⟩⟩

/-- At a depth that is a natural number an expression ends exactly where the reader with its natural
depth says. -/
theorem endsAt_natCast {depth : Nat} {t : Token} :
    EndsAt terminators depth t ↔ depth = 0 ∧ (t ∈ terminators ∨ t.closes) := by
  rw [EndsAt, Int.natCast_eq_zero]

/-- The end of the file is no end of an expression unless it is asked for. -/
theorem EndsAt.ne_eof {depth : Int} {t : Token} (h : EndsAt terminators depth t)
    (heof : .eof ∉ terminators) : t ≠ .eof := by
  rintro rfl
  exact h.2.elim heof (by simp [Token.closes])

/-- Unless an expression ends at a token, natural numbers count the open brackets as integers do. -/
theorem cast_depthBehind {depth : Nat} {t : Token} (hends : ¬ EndsAt terminators depth t) :
    (depthBehind t depth : Int) = depth + nesting [t] := by
  rw [depthBehind, nesting_singleton]
  by_cases hopens : t.opens
  · have hcloses : t.closes = false := by cases t <;> simp_all [Token.opens, Token.closes]
    simp [hopens, hcloses]
  · by_cases hcloses : t.closes
    · have hpos : depth ≠ 0 := fun hzero => hends (endsAt_natCast.mpr ⟨hzero, .inr hcloses⟩)
      simp only [hopens, hcloses, if_true, if_false, Bool.false_eq_true]
      omega
    · simp [hopens, hcloses]

theorem between_self (whole : Cursor) (i : Nat) : whole.between i i = [] := by
  simp [between]

/-- One more token is between. -/
theorem between_succ {start i : Nat} (hle : start ≤ i) (hi : i < whole.row.length) :
    whole.between start (i + 1) = whole.between start i ++ [(whole.row.get ⟨i, hi⟩).token] := by
  have hlength : start ≤ (whole.row.take i).length := by
    rw [List.length_take]
    omega
  rw [between, List.take_succ_eq_append_getElem hi, List.drop_append_of_le_length hlength,
    List.map_append]
  rfl

/-- What is between two tokens has an index between theirs. -/
theorem mem_between {t : Token} :
    t ∈ whole.between start i ↔ ∃ k, start ≤ k ∧ k < i ∧ (whole.row.get k).token = t := by
  simp only [between, List.mem_map, List.mem_drop_iff_getElem, List.getElem_take, List.length_take]
  constructor
  · rintro ⟨l, ⟨n, hn, rfl⟩, rfl⟩
    have hlt : start + n < i ∧ start + n < whole.row.length := by omega
    exact ⟨⟨start + n, hlt.2⟩, Nat.le_add_right _ _, hlt.1, rfl⟩
  · rintro ⟨k, hstart, hi, rfl⟩
    have hlt : k.val < i.val ∧ start.val ≤ k.val := ⟨hi, hstart⟩
    refine ⟨_, ⟨k - start, by omega, rfl⟩, ?_⟩
    simp only [Nat.add_sub_cancel' hlt.2]
    rfl

/-- Up to an earlier token less is between. -/
theorem between_subset {j : Fin whole.row.length} (h : j ≤ i) :
    whole.between start j ⊆ whole.between start i := by
  intro t ht
  obtain ⟨k, hstart, hk, htoken⟩ := mem_between.mp ht
  exact mem_between.mpr ⟨k, hstart, Nat.lt_of_lt_of_le hk h, htoken⟩

end

/-! ## What the reader does at a token -/

/-- What is read behind a later place is read behind an earlier one. -/
def From.ofBehind {c d : Cursor} {α : Type} (h : d.NotBefore c) (r : From d α) : From c α :=
  ⟨r.value, r.rest, r.notBefore.trans h⟩

section

variable {c : Cursor} {terminators : List Token} {depth : Nat}

/-- Where an expression ends the reader stays and leaves nothing. -/
theorem expression_of_endsAt (heof : .eof ∉ terminators)
    (hends : EndsAt terminators depth c.current) :
    c.expression terminators depth = .ok (c.stay []) := by
  rw [expression]
  split
  · next hview => exact absurd (current_of_view_stop hview) (hends.ne_eof heof)
  · next hview =>
    rw [current_of_view hview] at hends
    exact if_pos (endsAt_natCast.mp hends)

theorem expression_of_eof (h : c.current = .eof) :
    c.expression terminators depth = .error (c.fault (.more .expression)) := by
  rw [expression, view_eq_stop h]

/-- An object that is created is read, and the expression goes on behind it. -/
theorem expression_of_new (h : c.current = .keyword .new)
    (hends : ¬ EndsAt terminators depth c.current) :
    c.expression terminators depth = c.creation >>= fun r =>
      r.rest.expression terminators depth >>= fun r' =>
        .ok ⟨r.value ++ r'.value, r'.rest, (r'.notBefore.trans_lt r.behind).le⟩ := by
  rw [expression]
  split
  · next hview => simp [current_of_view_stop hview] at h
  · next t _ d hd hview =>
    obtain rfl : t = .keyword .new := (current_of_view hview).symm.trans h
    rw [h, endsAt_natCast] at hends
    rw [if_neg hends, if_pos rfl]
    rfl

/-- A token that neither ends an expression nor creates an object is passed over. -/
theorem expression_of_view {d : Cursor} {t : Token} {span : Span} {h : d.Behind c}
    (hview : c.view = .token t span d h) (hends : ¬ EndsAt terminators depth t)
    (hnew : t ≠ .keyword .new) :
    c.expression terminators depth =
      d.expression terminators (depthBehind t depth) >>= fun r => .ok (r.ofBehind h.le) := by
  rw [endsAt_natCast] at hends
  rw [expression, hview]
  simp only [if_neg hends, if_neg hnew]
  rfl

end

end Cursor

namespace Stateful

open State

open Cursor (After From EndsAt nesting depthBehind)

variable {whole : Cursor} {s : State whole} {terminators : List Token}

/-! ## Passing tokens -/

/-- The reader goes on at the next token, with the number of open brackets behind this one. -/
theorem expression_next {depth : Nat} (heof : s.lexeme.token ≠ .eof)
    (hnew : s.lexeme.token ≠ .keyword .new) (hends : ¬ EndsAt terminators depth s.lexeme.token) :
    ∃ h : s.next.place.NotBefore s.place, s.place.expression terminators depth =
      s.next.place.expression terminators (depthBehind s.lexeme.token depth) >>= fun r =>
        .ok (r.ofBehind h) := by
  obtain ⟨span, d, hd, hview, rfl⟩ := exists_view rfl rfl heof
  exact ⟨hd.le, Cursor.expression_of_view hview hends hnew⟩

/-- Up to an index the reader goes on if the expression could not end before it, no object was
created and the text was not over. It has counted the open brackets then. -/
theorem expression_goesOn {i : Fin whole.row.length} (hle : s.position ≤ i)
    (hnew : .keyword .new ∉ whole.between s.position i) (heof : .eof ∉ whole.between s.position i)
    (hfirst : ∀ j < i, ¬ whole.MayEnd terminators s.position j) :
    ∃ (depth : Nat) (h : (s.moved i).place.NotBefore s.place),
      (depth : Int) = nesting (whole.between s.position i) ∧
      s.place.expression terminators 0 =
        (s.moved i).place.expression terminators depth >>= fun r => .ok (r.ofBehind h) := by
  obtain ⟨i, hi⟩ := i
  replace hle : s.position.val ≤ i := hle
  dsimp only at hnew heof ⊢
  -- one token more each time; the counter is the nesting of the tokens that were passed
  induction hle with
  | refl =>
    refine ⟨0, Nat.le_refl _, ?_, ?_⟩
    · rw [Cursor.between_self, Cursor.nesting_nil]
      rfl
    · exact (bind_pure (s.place.expression terminators 0)).symm
  | @step i hle ih =>
    have hi' : i < whole.row.length := Nat.lt_of_succ_lt hi
    have hbetween := Cursor.between_succ hle hi'
    rw [Nat.succ_eq_add_one, hbetween, List.mem_append, List.mem_singleton, not_or] at hnew heof
    obtain ⟨depth, h, hdepth, heq⟩ :=
      ih hi' hnew.1 heof.1 fun j hj => hfirst j (Nat.lt_succ_of_lt hj)
    have hends : ¬ EndsAt terminators depth (s.moved ⟨i, hi'⟩).lexeme.token := by
      rw [hdepth]
      exact fun hends => hfirst ⟨i, hi'⟩ (Nat.lt_succ_self i) ⟨hle, hends⟩
    have hstep := expression_next (s := s.moved ⟨i, hi'⟩) (Ne.symm heof.2) (Ne.symm hnew.2) hends
    have hmoved : (s.moved ⟨i, hi'⟩).next = s.moved ⟨i + 1, hi⟩ := dif_pos hi
    rw [hmoved] at hstep
    obtain ⟨hnext, heq'⟩ := hstep
    refine ⟨depthBehind (s.moved ⟨i, hi'⟩).lexeme.token depth, hnext.trans h, ?_, ?_⟩
    · rw [Nat.succ_eq_add_one, hbetween, Cursor.nesting_append, ← hdepth]
      exact Cursor.cast_depthBehind hends
    · rw [heq, heq', bind_assoc]
      rfl

/-- Where an expression ends first it does end, with nothing read. -/
theorem expression_of_ends (hterminators : .eof ∉ terminators) {i : Fin whole.row.length}
    (hends : whole.Ends terminators s.position i)
    (hnew : .keyword .new ∉ whole.between s.position i)
    (heof : .eof ∉ whole.between s.position i) :
    ∃ h, s.place.expression terminators 0 = .ok ⟨[], (s.moved i).place, h⟩ := by
  obtain ⟨depth, h, hdepth, heq⟩ := expression_goesOn hends.start_le hnew heof hends.first
  have hendsAt : EndsAt terminators depth (s.moved i).place.current := by
    rw [hdepth, ← token_eq rfl]
    exact hends.endsAt
  refine ⟨h, ?_⟩
  rw [heq, Cursor.expression_of_endsAt hterminators hendsAt]
  rfl

/-- Where no end of an expression comes before an `eof`, the first `eof` is refused. -/
theorem expression_of_eof {j : Fin whole.row.length} (hle : s.position ≤ j)
    (heof : (whole.row.get j).token = .eof) (hnew : .keyword .new ∉ whole.between s.position j)
    (hfirst : ∀ i < j, ¬ whole.MayEnd terminators s.position i) :
    ∃ k ≤ j, (whole.row.get k).token = .eof ∧ s.place.expression terminators 0 =
      .error ⟨.more .expression, .eof, (whole.row.get k).span.start⟩ := by
  -- an earlier `eof` is refused before this one is seen
  by_cases hearlier : .eof ∈ whole.between s.position j
  · obtain ⟨k, hstart, hk, hkeof⟩ := Cursor.mem_between.mp hearlier
    have hkj := Nat.le_of_lt hk
    obtain ⟨k', hk', heof', hrun⟩ := expression_of_eof hstart hkeof
      (fun hmem => hnew (Cursor.between_subset hkj hmem))
      fun i hi => hfirst i (Nat.lt_trans hi hk)
    exact ⟨k', Nat.le_trans hk' hkj, heof', hrun⟩
  · obtain ⟨depth, h, -, heq⟩ := expression_goesOn hle hnew hearlier hfirst
    have hcurrent : (s.moved j).place.current = .eof := (token_eq rfl).symm.trans heof
    have hlexeme : whole.row.get j = ⟨(s.moved j).place.current, (s.moved j).place.span⟩ :=
      (s.moved j).lexeme_eq
    refine ⟨j, Nat.le_refl _, heof, ?_⟩
    rw [heq, Cursor.expression_of_eof hcurrent, hlexeme, Cursor.fault, hcurrent]
    rfl
termination_by j.val

/-! ## The rounds of the loop -/

/-- What a round of the loop does at a token, with `depth` open brackets. It gives the depth of the
next round, or nothing where the expression ends. -/
def expressionRoundBy (creation : Action whole Unit) (terminators : List Token) (depth : Int)
    (t : Token) : Action whole (Option Int) :=
  if depth = 0 ∧ t ∈ terminators then return none
  else match t with
    | .eof => fail (.more .expression)
    | .leftParen | .leftBracket | .leftBrace => do
      let _ ← advance
      return some (depth + 1)
    | .rightParen | .rightBracket | .rightBrace =>
      if depth = 0 then return none
      else do
        let _ ← advance
        return some (depth - 1)
    | .keyword .new => do
      creation
      return some depth
    | _ => do
      let _ ← advance
      return some depth

/-- One round of the loop. -/
def expressionRound (creation : Action whole Unit) (terminators : List Token) (depth : Int) :
    Action whole (Option Int) := do
  expressionRoundBy creation terminators depth (← current)

/-- Passes an expression up to a terminator or a closing bracket without a partner, neither of which
is consumed. The objects that are created in it are read by `creation`. -/
def expression (creation : Action whole Unit) (terminators : List Token) : Action whole Unit :=
  loop (fun again depth => do
    match ← expressionRound creation terminators depth with
    | some depth' => again depth'
    | none => return ()) (0 : Int)

/-- The loop, begun in a state, comes to a round with a depth and in a state. -/
inductive ComesTo (creation : Action whole Unit) (terminators : List Token)
    (start : State whole) : Int → State whole → Prop
  | first : ComesTo creation terminators start 0 start
  | next {depth depth' : Int} {s s' : State whole}
      (before : ComesTo creation terminators start depth s)
      (round : expressionRound creation terminators depth s = some (.ok (some depth'), s')) :
      ComesTo creation terminators start depth' s'

section

variable (creation : Action whole Unit) (terminators : List Token) (depth : Int)

/-- What a round can do: end the expression, refuse the end of the text, hand over to the reader of
creations, or pass a token. -/
theorem expressionRound_cases {t : Token} (ht : s.lexeme.token = t) :
    (EndsAt terminators depth t ∧
      expressionRound creation terminators depth s = some (.ok none, s)) ∨
    (¬ EndsAt terminators depth t ∧ t = .eof ∧
      expressionRound creation terminators depth s =
        some (.error (s.place.fault (.more .expression)), s)) ∨
    (¬ EndsAt terminators depth t ∧ t = .keyword .new ∧
      expressionRound creation terminators depth s =
        (do creation; return some depth : Action whole _) s) ∨
    (¬ EndsAt terminators depth t ∧ t ≠ .eof ∧ t ≠ .keyword .new ∧
      expressionRound creation terminators depth s =
        some (.ok (some (depth + nesting [t])), s.next)) := by
  have hround : expressionRound creation terminators depth s =
      expressionRoundBy creation terminators depth t s := by
    rw [← ht]
    rfl
  have hadvance (n : Int) : (do let _ ← advance; return some n : Action whole _) s =
      some (.ok (some n), s.next) := rfl
  rw [hround]
  unfold expressionRoundBy
  by_cases hterminator : depth = 0 ∧ t ∈ terminators
  · rw [if_pos hterminator]
    exact .inl ⟨⟨hterminator.1, .inl hterminator.2⟩, rfl⟩
  rw [if_neg hterminator]
  have hplain (hcloses : t.closes = false) : ¬ EndsAt terminators depth t := by
    rintro ⟨hzero, hmem | hcloses'⟩
    · exact hterminator ⟨hzero, hmem⟩
    · simp [hcloses] at hcloses'
  -- one case for each kind of token that the loop tells apart
  split
  case h_1 => exact .inr (.inl ⟨hplain rfl, rfl, fail_eq s _⟩)
  case h_2 | h_3 | h_4 =>
    exact .inr (.inr (.inr ⟨hplain rfl, by simp, by simp, hadvance _⟩))
  case h_5 | h_6 | h_7 =>
    by_cases hzero : depth = 0
    · rw [if_pos hzero]
      exact .inl ⟨⟨hzero, .inr rfl⟩, rfl⟩
    · rw [if_neg hzero]
      exact .inr (.inr (.inr ⟨fun hends => hzero hends.1, by simp, by simp, hadvance _⟩))
  case h_8 => exact .inr (.inr (.inl ⟨hplain rfl, rfl, rfl⟩))
  case h_9 =>
    have hbrackets : t.opens = false ∧ t.closes = false := by
      cases t <;> simp_all [Token.opens, Token.closes]
    have hnesting : nesting [t] = 0 := by simp [Cursor.nesting_singleton, hbrackets]
    rw [hnesting, Int.add_zero]
    exact .inr (.inr (.inr ⟨hplain hbrackets.2, by assumption, by assumption, rfl⟩))

end

/-- A token at which the expression does not end leaves the counter at zero or above. -/
theorem nonneg_of_not_endsAt {depth : Int} {t : Token} (h : 0 ≤ depth)
    (hends : ¬ EndsAt terminators depth t) : 0 ≤ depth + nesting [t] := by
  obtain ⟨n, rfl⟩ := Int.eq_ofNat_of_zero_le h
  rw [← Cursor.cast_depthBehind hends]
  exact Int.natCast_nonneg _

/-- The counter never goes below zero, whatever the reader of creations does. -/
theorem depth_nonneg {creation : Action whole Unit} {start : State whole} {depth : Int}
    (h : ComesTo creation terminators start depth s) : 0 ≤ depth := by
  induction h with
  | first => exact Int.le_refl 0
  | next before round ih =>
    rcases expressionRound_cases creation terminators _ rfl with
      ⟨-, hround⟩ | ⟨-, -, hround⟩ | ⟨-, -, hround⟩ | ⟨hends, -, -, hround⟩
    · cases round.symm.trans hround
    · cases round.symm.trans hround
    · obtain ⟨_, s₁, -, hrest⟩ := exists_of_bind (hround.symm.trans round)
      cases hrest
      exact ih
    · cases round.symm.trans hround
      exact nonneg_of_not_endsAt ih hends

/-! ## The loop and the reader of the grammar -/

/-- The reader of creations of the grammar. -/
def creation (parent : Nat) : Action whole Unit :=
  grafting (fun _ => After.rest) (fun _ => After.value) Cursor.creation parent

section

open State.Grafts

variable {c : Cursor}

/-- A creation that is hung by the grammar's reader is hung as it gives it. -/
theorem creation_grafts (hs : s.place = c) (parent : Nat) :
    s.Grafts s parent After.rest After.value c.creation (creation parent) :=
  grafts_grafting (fun _ => After.rest) (fun _ => After.value) Cursor.creation hs
    (Cursor.staysIn_creation (Cursor.staysBelow whole _) (Nat.le_refl _) (State.placeIn hs)) parent

/-- If what reads the creations is the grammar's from the cursor on, the loop is the grammar's
reader of expressions. -/
theorem grafts_expression_of {create : Action whole Unit} {parent : Nat}
    (hterminators : .eof ∉ terminators) (hs : s.place = c)
    (hcreate : ∀ {s : State whole} {d : Cursor}, s.place = d → d.NotBefore c →
      s.Grafts s parent After.rest After.value d.creation create) :
    s.Grafts s parent From.rest From.value (c.expression terminators 0)
      (expression create terminators) := by
  -- the depth is a natural number here and an integer at the cursor; a round carries both
  refine loop_induction (fun depth : Nat => (depth : Int))
    (P := fun d s depth run => d.NotBefore c → s.GraftOutcome parent From.rest From.value
      (d.expression terminators depth) run)
    (fun d s depth again hs hagain hd => ?_) hs 0 (Nat.le_refl _)
  have hcases := expressionRound_cases create terminators depth (token_eq hs)
  -- the round stops, fails at the end of the tokens, hands over to the creation, or steps
  rcases hcases with ⟨hends, hround⟩ | ⟨hends, ht, hround⟩ | ⟨hends, ht, hround⟩ |
    ⟨hends, ht, hnew, hround⟩
  · rw [Cursor.expression_of_endsAt hterminators hends, bind_of_ok hround]
    exact .ends hs (.refl s parent)
  · rw [Cursor.expression_of_eof ht, bind_of_error hround, hs]
    exact .fails _ rfl
  · rw [Cursor.expression_of_new ht hends, bind_of_run_eq hround, bind_assoc]
    refine (hcreate hs hd).bind (.refl s parent) fun r s₁ hs₁ hg₁ => ?_
    rw [pure_bind]
    exact carried (hagain r.rest s₁ depth hs₁ r.behind (r.behind.trans_le hd).le) hg₁
      fun r' => ⟨_, rfl, rfl, rfl⟩
  · obtain ⟨span, e, he, hview, hs'⟩ := exists_view hs (token_eq hs) ht
    rw [Cursor.expression_of_view hview hends hnew, bind_of_ok hround,
      ← Cursor.cast_depthBehind hends]
    exact carried (hagain e s.next _ hs' he (he.trans_le hd).le) (Hung.refl s parent).next
      fun r => ⟨_, rfl, rfl, rfl⟩

/-- With the reader of creations of the grammar the loop is the grammar's reader of expressions. -/
theorem grafts_expression (hterminators : .eof ∉ terminators) (hs : s.place = c) (parent : Nat) :
    s.Grafts s parent From.rest From.value (c.expression terminators 0)
      (expression (creation parent) terminators) :=
  grafts_expression_of hterminators hs fun hs _ => creation_grafts hs parent

/-- An action that hangs nothing below the node only moves the index. -/
theorem State.Grafts.eq_moved {parent : Nat} {m : Action whole Unit} {h : c.NotBefore s.place}
    {p : Fin whole.row.length} (hp : (s.moved p).place = c)
    (hm : s.Grafts s parent From.rest From.value (.ok ⟨[], c, h⟩) m) :
    m s = some (.ok (), s.moved p) := by
  rw [Grafts] at hm
  generalize m s = run at hm ⊢
  cases hm with
  | @ends _ s' place hung =>
    have hposition : s'.moved p = s' := moved_eq_self (hp.trans place.symm)
    have hstate : s'.moved p = s.moved p := by
      rw [State.moved, hung.tree_eq, hung.errors_eq, SyntaxTree.graftAll]
      rfl
    rw [← hposition, hstate]

/-- An action that hangs what a failing reader gives fails with the same error. -/
theorem State.Grafts.exists_error {ρ : Type} {start : State whole} {parent : Nat}
    {rest : ρ → Cursor} {outlines : ρ → List Outline} {m : Action whole Unit} {e : SyntaxError}
    (hm : s.Grafts start parent rest outlines (.error e) m) : ∃ s', m s = some (.error e, s') := by
  rw [Grafts] at hm
  generalize m s = run at hm ⊢
  cases hm with
  | fails e herrors => exact ⟨_, rfl⟩

end

/-! ## The end of an expression -/

/-- Where an expression ends, in any row of tokens, from any index of it and for any terminators but
`eof`. Take the first index at which as many brackets were closed as opened, and at which a
terminator or a closing bracket stands. If neither a `new` nor an `eof` stands in front of it, the
reader stops there with nothing read, and the parser has moved its index and left the rest of its
state as it was. If an `eof` comes first, and no `new` in front of that, both fail, at the first
`eof`. The counter of the parser is never below zero, whatever the reader of creations does. And
whatever is created in the expression, the parser hangs below the node what the reader reads. -/
theorem stops_at_first_end (s : State whole) (parent : Nat) (hterminators : .eof ∉ terminators) :
    (∀ i, whole.Ends terminators s.position i →
      .keyword .new ∉ whole.between s.position i → .eof ∉ whole.between s.position i →
      expression (creation parent) terminators s = some (.ok (), s.moved i) ∧
      ∃ h, s.place.expression terminators 0 = .ok ⟨[], (s.moved i).place, h⟩) ∧
    (∀ j, s.position ≤ j → (whole.row.get j).token = .eof →
      .keyword .new ∉ whole.between s.position j →
      (∀ i < j, ¬ whole.MayEnd terminators s.position i) →
      ∃ k ≤ j, (whole.row.get k).token = .eof ∧
        let e : SyntaxError := ⟨.more .expression, .eof, (whole.row.get k).span.start⟩
        (∃ s', expression (creation parent) terminators s = some (.error e, s')) ∧
        s.place.expression terminators 0 = .error e) ∧
    (∀ create depth s', ComesTo create terminators s depth s' → 0 ≤ depth) ∧
    s.Grafts s parent From.rest From.value (s.place.expression terminators 0)
      (expression (creation parent) terminators) := by
  -- the cursor says which tokens are read, the grafting that the state reads the same ones
  have hgrafts := grafts_expression hterminators (s := s) rfl parent
  refine ⟨?_, ?_, ?_, hgrafts⟩
  · intro i hends hnew heof
    obtain ⟨h, hread⟩ := expression_of_ends hterminators hends hnew heof
    rw [hread] at hgrafts
    exact ⟨hgrafts.eq_moved rfl, h, hread⟩
  · intro j hle htoken hnew hfirst
    obtain ⟨k, hk, hkeof, hread⟩ := expression_of_eof hle htoken hnew hfirst
    rw [hread] at hgrafts
    exact ⟨k, hk, hkeof, hgrafts.exists_error, hread⟩
  · intro create depth s' hround
    exact depth_nonneg hround

/-- The tokens of `f(a, b[i});` and of `g{`, then an `eof` with a parenthesis behind it. -/
def mixedBrackets : Cursor where
  pending :=
    [.identifier "f", .leftParen, .identifier "a", .comma, .identifier "b", .leftBracket,
      .identifier "i", .rightBrace, .rightParen, .semicolon, .identifier "g", .leftBrace, .eof,
      .rightParen].map (⟨·, .at ⟨1, 1⟩⟩)
  stop := .at ⟨1, 1⟩

/-- The comma in the parentheses ends nothing, and the two kinds of brackets in them make a pair. -/
theorem stops_at_first_end_mixedBrackets :
    let s : State mixedBrackets := ⟨⟨0, by decide⟩, .empty, []⟩
    let i : Fin mixedBrackets.row.length := ⟨9, by decide⟩
    let j : Fin mixedBrackets.row.length := ⟨12, by decide⟩
    let s' := s.moved ⟨10, by decide⟩
    let terminators := [.comma, .semicolon]
    .eof ∉ terminators ∧ mixedBrackets.Ends terminators s.position i ∧
      .keyword .new ∉ mixedBrackets.between s.position i ∧
      .eof ∉ mixedBrackets.between s.position i ∧
      expression (creation 0) terminators s = some (.ok (), s.moved i) ∧
      (mixedBrackets.row.get j).token = .eof ∧
      .keyword .new ∉ mixedBrackets.between s'.position j ∧
      (∀ k < j, ¬ mixedBrackets.MayEnd terminators s'.position k) ∧
      (∃ e s'', expression (creation 0) terminators s' = some (.error e, s'')) ∧
      ComesTo (creation 0) terminators s 2 (s.moved ⟨6, by decide⟩) ∧ (0 : Int) ≤ 2 := by
  intro s i j s' terminators
  have hterminators : .eof ∉ terminators := by decide
  have hends : mixedBrackets.Ends terminators s.position i := by decide
  have hnew : .keyword .new ∉ mixedBrackets.between s.position i := by decide
  have heof : .eof ∉ mixedBrackets.between s.position i := by decide
  have htoken : (mixedBrackets.row.get j).token = .eof := by decide
  have hnew' : .keyword .new ∉ mixedBrackets.between s'.position j := by decide
  have hfirst : ∀ k < j, ¬ mixedBrackets.MayEnd terminators s'.position k := by decide
  -- behind the parenthesis the depth is one, and behind the bracket inside it two
  have hparen : ComesTo (creation 0) terminators s 1 (s.moved ⟨2, by decide⟩) :=
    .next (.next .first rfl) rfl
  have hbracket : ComesTo (creation 0) terminators s 2 (s.moved ⟨6, by decide⟩) :=
    .next (.next (.next (.next hparen rfl) rfl) rfl) rfl
  obtain ⟨hstops, -, hdepth, -⟩ := stops_at_first_end s 0 hterminators
  obtain ⟨-, hfails, -⟩ := stops_at_first_end s' 0 hterminators
  obtain ⟨k, -, -, ⟨s'', hrun⟩, -⟩ := hfails j (by decide) htoken hnew' hfirst
  exact ⟨hterminators, hends, hnew, heof, (hstops i hends hnew heof).1, htoken, hnew', hfirst,
    ⟨_, s'', hrun⟩, hbracket, hdepth _ _ _ hbracket⟩

end Stateful

end FieldShadow
