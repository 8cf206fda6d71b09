import FieldShadow.Proofs.Grammar.Reading

/-!
# Reading in front of more tokens

What the readers of the grammar make of a sequence of tokens when further tokens stand behind it.
An `Extension` is a sequence (`whole`), the tokens behind it (`more`), and a way to move what was
read to another place of the text (`move`). A cursor of the sequence becomes one of the longer
sequence (`Extension.cursor`), and a reader that is content with the sequence gives the same in
front of the further tokens, moved.

A reader that stops at the end of the sequence would go on in front of more tokens. So a result is
carried over only while tokens of the sequence are left behind it (`Extension.floor`), which readers
whose last token is a brace or a semicolon do not need. Types are tried where an expression may
stand, and what was no type must not become one: for the readers that types are made of failures
are carried over too (`Extension.Follows`).
-/

namespace FieldShadow

namespace Cursor

/-! ## Places of one sequence -/

/-- A place of the sequence that begins at another cursor. -/
structure PlaceIn (c whole : Cursor) : Prop where
  stop_eq : c.stop = whole.stop
  suffix : c.pending <:+ whole.pending

theorem PlaceIn.refl (c : Cursor) : c.PlaceIn c :=
  ⟨rfl, List.suffix_refl _⟩

/-- A token that is seen is the first of the pending ones, and is not the end. -/
theorem eq_cons_of_view {c c₁ : Cursor} {t : Token} {s : Span} {h : c₁.Behind c}
    (hview : c.view = .token t s c₁ h) :
    t ≠ .eof ∧ c = ⟨⟨t, s⟩ :: c₁.pending, c₁.stop⟩ := by
  obtain ⟨pending, stop⟩ := c
  cases pending with
  | nil => exact nomatch hview
  | cons l rest =>
    by_cases heof : (mk (l :: rest) stop).current = .eof
    · rw [view_eq_stop heof] at hview
      exact nomatch hview
    · have hview' : (mk (l :: rest) stop).view = _ := view_cons heof
      rw [hview'] at hview
      obtain ⟨rfl, rfl, rfl⟩ := View.token.inj hview
      exact ⟨heof, rfl⟩

/-- Behind a token that is seen the place is still in the sequence. -/
theorem PlaceIn.of_view {c c₁ whole : Cursor} {t : Token} {s : Span} {h : c₁.Behind c}
    (hc : c.PlaceIn whole) (hview : c.view = .token t s c₁ h) : c₁.PlaceIn whole := by
  obtain ⟨-, rfl⟩ := eq_cons_of_view hview
  exact ⟨hc.stop_eq, (List.suffix_cons _ _).trans hc.suffix⟩

/-- A skip stays in the sequence, also at its end. -/
theorem PlaceIn.skip {c whole : Cursor} (hc : c.PlaceIn whole) : c.skip.PlaceIn whole :=
  ⟨hc.stop_eq, (List.tail_suffix _).trans hc.suffix⟩

/-- Only the end of such a sequence is seen as an end. -/
theorem PlaceIn.pending_eq_nil {c whole : Cursor} (hc : c.PlaceIn whole)
    (heof : ∀ l ∈ whole.pending, l.token ≠ .eof) (h : c.current = .eof) : c.pending = [] := by
  obtain ⟨pending, stop⟩ := c
  cases pending with
  | nil => rfl
  | cons l rest => exact absurd h (heof l (hc.suffix.mem (List.mem_cons_self ..)))

/-- The token that nothing stands behind is the last one. -/
theorem PlaceIn.getLast?_of_view {c c₁ whole : Cursor} {t : Token} {s : Span} {h : c₁.Behind c}
    (hc : c.PlaceIn whole) (hview : c.view = .token t s c₁ h) (hnil : c₁.pending = []) :
    whole.pending.getLast? = some ⟨t, s⟩ := by
  obtain ⟨-, rfl⟩ := eq_cons_of_view hview
  obtain ⟨before, hbefore⟩ := hc.suffix
  rw [← hbefore, hnil, List.getLast?_append]
  rfl

/-- The text is empty, or it ends with a brace or a semicolon. -/
def Closed (whole : Cursor) : Prop :=
  ∀ l ∈ whole.pending.getLast?, l.token = .rightBrace ∨ l.token = .semicolon

theorem PlaceIn.pending_ne_nil {c c₁ whole : Cursor} {t : Token} {s : Span} {h : c₁.Behind c}
    (hc : c.PlaceIn whole) (hclosed : whole.Closed) (hview : c.view = .token t s c₁ h)
    (ht : t ≠ .rightBrace ∧ t ≠ .semicolon) : c₁.pending ≠ [] := by
  intro hnil
  rcases hclosed _ (hc.getLast?_of_view hview hnil) with h | h
  · exact ht.1 h
  · exact ht.2 h

/-! ## Annotations that end before the text does -/

/-- An annotation begins at the cursor, and it ends with the text or its arguments are open
there. -/
def annotationReachesEnd (c : Cursor) : Bool :=
  match c.annotationUse with
  | .ok r => r.rest.remaining == 0
  | .error e => e.demand == .balancedBrackets

/-- No annotation reaches the end of the text. The brackets of annotation arguments are counted
alike, so a bracket that is not paired lets them run into what follows. -/
def AnnotationsClose (whole : Cursor) : Prop :=
  ∀ n < whole.remaining, annotationReachesEnd ⟨whole.pending.drop n, whole.stop⟩ = false

instance (whole : Cursor) : Decidable whole.AnnotationsClose :=
  inferInstanceAs (Decidable (∀ n < _, _))

/-! ## Extensions -/

/-- A sequence of tokens, further tokens that stand behind it, and a way to move spans. What the
sequence must meet for its readings to last is asked only if further tokens do stand behind it. -/
structure Extension where
  /-- The sequence. -/
  whole : Cursor
  /-- The tokens behind it. -/
  more : Cursor
  /-- Where a span of the sequence is found in the longer one. -/
  move : Span → Span
  move_to : ∀ s t, move (s.to t) = (move s).to (move t)
  ends : more.pending ≠ [] → whole.Closed
  closes : more.pending ≠ [] → whole.AnnotationsClose

namespace Extension

variable {x : Extension}

/-- A place of the sequence, with the further tokens behind it. -/
def cursor (x : Extension) (c : Cursor) : Cursor :=
  ⟨c.pending.map (fun l => ⟨l.token, x.move l.span⟩) ++ x.more.pending, x.more.stop⟩

/-- The number of tokens that are left at every place before the end of the sequence; none if there
are no further tokens that this could be confused with. -/
def floor (x : Extension) : Nat :=
  if x.more.pending = [] then 0 else 1

/-- At most one token has to be left over, and only if something is appended. -/
theorem floor_le (x : Extension) : x.floor ≤ 1 := by
  unfold floor
  split <;> omega

/-- Where one more token can be passed, enough is left. -/
theorem floor_le_of_behind {c d : Cursor} (h : d.Behind c) : x.floor ≤ c.remaining := by
  have := x.floor_le
  omega

/-- Moving on is moving on in the longer sequence. -/
theorem behind_cursor {c d : Cursor} (h : d.Behind c) : (x.cursor d).Behind (x.cursor c) := by
  simp only [Behind, remaining, cursor, List.length_append, List.length_map] at h ⊢
  omega

/-- Standing still or moving on is the same in the longer sequence. -/
theorem notBefore_cursor {c d : Cursor} (h : d.NotBefore c) :
    (x.cursor d).NotBefore (x.cursor c) := by
  simp only [NotBefore, remaining, cursor, List.length_append, List.length_map] at h ⊢
  omega

/-- At the end of the short sequence enough is left only if nothing is appended. -/
theorem more_eq_nil_of_floor {stop : Span} (h : x.floor ≤ (Cursor.mk [] stop).remaining) :
    x.more.pending = [] := by
  by_cases hmore : x.more.pending = []
  · exact hmore
  · simp [floor, hmore, remaining] at h

section

variable {c : Cursor} {α : Type}

/-- What is seen in front of more tokens. -/
def view : View c → View (x.cursor c)
  | .stop => .stop
  | .token t s c₁ h => .token t (x.move s) (x.cursor c₁) (behind_cursor h)

/-- A result in front of more tokens. -/
def afterOf (x : Extension) (f : α → α) (r : After c α) : After (x.cursor c) α :=
  ⟨f r.value, x.cursor r.rest, behind_cursor r.behind⟩

/-- A result in front of more tokens, which may have consumed none of the sequence. -/
def fromOf (x : Extension) (f : α → α) (r : From c α) : From (x.cursor c) α :=
  ⟨f r.value, x.cursor r.rest, notBefore_cursor r.notBefore⟩

end

/-- While enough is left the same token is seen in both sequences, with its stretch moved. -/
theorem view_cursor {c : Cursor} (hl : x.floor ≤ c.remaining) :
    (x.cursor c).view = x.view c.view := by
  obtain ⟨pending, stop⟩ := c
  cases pending with
  | nil =>
    have hview : (Cursor.mk [] stop).view = .stop := rfl
    rw [hview]
    exact view_eq_stop (by simp [cursor, current, more_eq_nil_of_floor hl])
  | cons l rest =>
    by_cases heof : l.token = .eof
    · rw [view_eq_stop (show (Cursor.mk (l :: rest) stop).current = _ from heof)]
      exact view_eq_stop (show (x.cursor ⟨l :: rest, stop⟩).current = _ from heof)
    · have hview : (Cursor.mk (l :: rest) stop).view = _ := view_cons heof
      have hview' : (x.cursor ⟨l :: rest, stop⟩).view = _ := view_cons heof
      rw [hview, hview']
      rfl

/-- A token seen in the short sequence is seen in the longer one. -/
theorem view_token {c c₁ : Cursor} {t : Token} {s : Span} {h : c₁.Behind c}
    (hview : c.view = .token t s c₁ h) :
    (x.cursor c).view = .token t (x.move s) (x.cursor c₁) (behind_cursor h) := by
  rw [view_cursor (floor_le_of_behind h), hview]
  rfl

/-- While enough is left the same token is current in both. -/
theorem current_cursor {c : Cursor} (hl : x.floor ≤ c.remaining) :
    (x.cursor c).current = c.current := by
  obtain ⟨pending, stop⟩ := c
  cases pending with
  | nil => simp [cursor, current, more_eq_nil_of_floor hl]
  | cons l rest => rfl

/-- What is no brace or semicolon is not the last token, if there are more. -/
theorem floor_le_of_view {c c₁ : Cursor} {t : Token} {s : Span} {h : c₁.Behind c}
    (hc : c.PlaceIn x.whole) (hview : c.view = .token t s c₁ h)
    (ht : t ≠ .rightBrace ∧ t ≠ .semicolon) : x.floor ≤ c₁.remaining := by
  by_cases hmore : x.more.pending = []
  · simp [floor, hmore]
  · have := List.length_pos_iff.mpr (hc.pending_ne_nil (x.ends hmore) hview ht)
    simp only [floor, hmore, if_false, remaining]
    omega

/-- While tokens are appended no annotation that is read reaches the end of the short sequence, by
the condition on annotations. -/
theorem annotationReachesEnd_eq_false {c : Cursor} (hc : c.PlaceIn x.whole)
    (hmore : x.more.pending ≠ []) (hl : x.floor ≤ c.remaining) :
    c.annotationReachesEnd = false := by
  have hne : 1 ≤ c.remaining := by
    simpa [floor, hmore] using hl
  have hle := hc.suffix.length_le
  have heq : c = ⟨x.whole.pending.drop (x.whole.remaining - c.remaining), x.whole.stop⟩ := by
    obtain ⟨pending, stop⟩ := c
    obtain ⟨rfl, hsuffix⟩ := hc
    rw [List.suffix_iff_eq_drop] at hsuffix
    exact congrArg (Cursor.mk · _) hsuffix
  rw [heq]
  refine x.closes hmore _ ?_
  simp only [remaining] at hne hle ⊢
  omega

/-! ## Readings that correspond -/

section

variable {ρ ρ' σ σ' : Type} {rest : ρ → Cursor} {image : ρ → ρ'} {rest' : σ → Cursor}
  {image' : σ → σ'}

/-- Two readings, of the sequence and in front of more tokens, that fail both or give the same and
leave tokens of the sequence. -/
def Follows (x : Extension) (rest : ρ → Cursor) (image : ρ → ρ') (a : Except SyntaxError ρ)
    (b : Except SyntaxError ρ') : Prop :=
  (∃ r, a = .ok r ∧ b = .ok (image r) ∧ (rest r).PlaceIn x.whole ∧
    x.floor ≤ (rest r).remaining) ∨ ∃ e e', a = .error e ∧ b = .error e'

/-- Readings that correspond, followed by readings that correspond wherever the first ended,
correspond. The continuation may use that its place is in the sequence and that enough is left. -/
theorem Follows.bind {a : Except SyntaxError ρ} {b : Except SyntaxError ρ'}
    {f : ρ → Except SyntaxError σ} {g : ρ' → Except SyntaxError σ'} (h : x.Follows rest image a b)
    (hok : ∀ r, a = .ok r → (rest r).PlaceIn x.whole → x.floor ≤ (rest r).remaining →
      x.Follows rest' image' (f r) (g (image r))) :
    x.Follows rest' image' (a >>= f) (b >>= g) := by
  rcases h with ⟨r, ha, hb, hplace, hlive⟩ | ⟨e, e', ha, hb⟩
  · rw [ha, hb]
    exact hok r ha hplace hlive
  · rw [ha, hb]
    exact .inr ⟨_, _, rfl, rfl⟩

/-- What is read in the short sequence is read in the longer one. -/
theorem Follows.of_ok {a : Except SyntaxError ρ} {b : Except SyntaxError ρ'}
    (h : x.Follows rest image a b) {r : ρ} (ha : a = .ok r) :
    b = .ok (image r) ∧ (rest r).PlaceIn x.whole ∧ x.floor ≤ (rest r).remaining := by
  rcases h with ⟨r₀, ha', hb⟩ | ⟨e, e', ha', hb⟩
  · obtain rfl := Except.ok.inj (ha.symm.trans ha')
    exact hb
  · cases ha.symm.trans ha'

section

variable {c : Cursor} {α : Type} {F : α → α}

/-- The same steps after a reader that consumes a token, for each of its results. -/
theorem Follows.bind_after {a : Except SyntaxError (After c α)}
    {b : Except SyntaxError (After (x.cursor c) α)} {f : After c α → Except SyntaxError σ}
    {g : After (x.cursor c) α → Except SyntaxError σ'} (h : x.Follows After.rest (x.afterOf F) a b)
    (hok : ∀ v c₁ h₁, a = .ok ⟨v, c₁, h₁⟩ → c₁.PlaceIn x.whole → x.floor ≤ c₁.remaining →
      x.Follows rest' image' (f ⟨v, c₁, h₁⟩) (g ⟨F v, x.cursor c₁, behind_cursor h₁⟩)) :
    x.Follows rest' image' (a >>= f) (b >>= g) :=
  h.bind fun ⟨v, c₁, h₁⟩ => hok v c₁ h₁

/-- The same steps after a reader that need not consume a token. -/
theorem Follows.bind_from {a : Except SyntaxError (From c α)}
    {b : Except SyntaxError (From (x.cursor c) α)} {f : From c α → Except SyntaxError σ}
    {g : From (x.cursor c) α → Except SyntaxError σ'} (h : x.Follows From.rest (x.fromOf F) a b)
    (hok : ∀ v c₁ h₁, a = .ok ⟨v, c₁, h₁⟩ → c₁.PlaceIn x.whole → x.floor ≤ c₁.remaining →
      x.Follows rest' image' (f ⟨v, c₁, h₁⟩) (g ⟨F v, x.cursor c₁, notBefore_cursor h₁⟩)) :
    x.Follows rest' image' (a >>= f) (b >>= g) :=
  h.bind fun ⟨v, c₁, h₁⟩ => hok v c₁ h₁

end

end

section

variable {c : Cursor} {α : Type}

/-- A reader that moves on may be taken for one that may stand still, on both sides. -/
theorem Follows.toFrom {a : Except SyntaxError (After c α)}
    {b : Except SyntaxError (After (x.cursor c) α)}
    (h : x.Follows After.rest (x.afterOf id) a b) :
    x.Follows From.rest (x.fromOf id) (a.map After.toFrom) (b.map After.toFrom) := by
  rcases h with ⟨r, rfl, rfl, hplace, hlive⟩ | ⟨e, e', rfl, rfl⟩
  · exact .inl ⟨_, rfl, rfl, hplace, hlive⟩
  · exact .inr ⟨_, _, rfl, rfl⟩

/-- Reading nothing corresponds to reading nothing. -/
theorem Follows.stay (hc : c.PlaceIn x.whole) (hl : x.floor ≤ c.remaining) (value : α) :
    x.Follows From.rest (x.fromOf id) (.ok (c.stay value)) (.ok ((x.cursor c).stay value)) :=
  .inl ⟨_, rfl, rfl, hc, hl⟩

/-- Results of readers that never fail, of the sequence and in front of more tokens, that are the
same and leave tokens of the sequence. -/
structure Same (x : Extension) (r : From c α) (r' : From (x.cursor c) α) : Prop where
  eq : r' = x.fromOf id r
  place : r.rest.PlaceIn x.whole
  live : x.floor ≤ r.rest.remaining

/-- Reading nothing is the same on both sides. -/
theorem Same.stay (hc : c.PlaceIn x.whole) (hl : x.floor ≤ c.remaining) (value : α) :
    x.Same (c.stay value) ((x.cursor c).stay value) :=
  ⟨rfl, hc, hl⟩

end

/-! ## Single tokens -/

/-- A mark that is read is read in the longer sequence. Behind a closing brace or a semicolon
nothing may be left, behind all other marks something is, since a unit ends with one of the two. -/
theorem expect_cursor {c : Cursor} {m : Mark} {r : After c Span}
    (h : c.expect m = .ok r) (hc : c.PlaceIn x.whole) :
    (x.cursor c).expect m = .ok (x.afterOf x.move r) ∧ r.rest.PlaceIn x.whole ∧
      (m.token ≠ .rightBrace ∧ m.token ≠ .semicolon → x.floor ≤ r.rest.remaining) := by
  unfold expect accept? at h ⊢
  cases hview : c.view with
  | stop =>
    rw [hview] at h
    cases h
  | token t s c₁ h₁ =>
    rw [hview] at h
    rw [view_token hview]
    by_cases ht : t = m.token
    · simp only [if_pos ht] at h ⊢
      obtain rfl := Except.ok.inj h
      exact ⟨rfl, hc.of_view hview, fun hm => floor_le_of_view hc hview (ht ▸ hm)⟩
    · simp only [if_neg ht] at h
      cases h

/-- Marks that no unit ends with are read, or missed, on both sides. -/
theorem expect_follows {c : Cursor} {m : Mark} (hc : c.PlaceIn x.whole)
    (hl : x.floor ≤ c.remaining) (hm : m.token ≠ .rightBrace ∧ m.token ≠ .semicolon) :
    x.Follows After.rest (x.afterOf x.move) (c.expect m) ((x.cursor c).expect m) := by
  cases h : c.expect m with
  | ok r =>
    obtain ⟨h', hplace, hlive⟩ := expect_cursor h hc
    exact .inl ⟨r, rfl, h', hplace, hlive hm⟩
  | error e =>
    have hfail : ∃ e', (x.cursor c).expect m = .error e' := by
      unfold expect accept? at h ⊢
      rw [view_cursor hl]
      cases hview : c.view with
      | stop => exact ⟨_, rfl⟩
      | token t s c₁ h₁ =>
        rw [hview] at h
        by_cases ht : t = m.token
        · simp only [if_pos ht] at h
          cases h
        · simp only [view, if_neg ht]
          exact ⟨_, rfl⟩
    exact .inr ⟨e, hfail.imp fun _ => .intro rfl⟩

/-- A name that is read is read in the longer sequence; no unit ends with a name, so something is
left behind it. -/
theorem name_cursor {c : Cursor} {role : NameRole} {r : After c (String × Span)}
    (h : c.name role = .ok r) (hc : c.PlaceIn x.whole) :
    (x.cursor c).name role = .ok (x.afterOf (Prod.map id x.move) r) ∧ r.rest.PlaceIn x.whole ∧
      x.floor ≤ r.rest.remaining := by
  unfold name at h ⊢
  split at h
  · next name s c₁ h₁ hview =>
    rw [view_token hview]
    obtain rfl := Except.ok.inj h
    exact ⟨rfl, hc.of_view hview, floor_le_of_view hc hview (by simp)⟩
  · cases h

/-- Names are read, or missed, on both sides. -/
theorem name_follows {c : Cursor} {role : NameRole} (hc : c.PlaceIn x.whole)
    (hl : x.floor ≤ c.remaining) :
    x.Follows After.rest (x.afterOf (Prod.map id x.move)) (c.name role)
      ((x.cursor c).name role) := by
  cases h : c.name role with
  | ok r => exact .inl ⟨r, rfl, name_cursor h hc⟩
  | error e =>
    have hfail : ∃ e', (x.cursor c).name role = .error e' := by
      unfold name at h ⊢
      rw [view_cursor hl]
      cases hview : c.view with
      | stop => exact ⟨_, rfl⟩
      | token t s c₁ h₁ =>
        rw [hview] at h
        cases t with
        | identifier => cases h
        | _ => exact ⟨_, rfl⟩
    exact .inr ⟨e, hfail.imp fun _ => .intro rfl⟩

/-! ## Types -/

/-- Type arguments are passed to corresponding places, by induction on what is left. -/
theorem typeArguments_cursor {c : Cursor} (hc : c.PlaceIn x.whole) (hl : x.floor ≤ c.remaining)
    (depth : Nat) :
    x.Follows After.rest (x.afterOf id) (c.typeArguments depth)
      ((x.cursor c).typeArguments depth) := by
  rw [typeArguments, typeArguments, view_cursor hl]
  cases hview : c.view with
  | stop => exact .inr ⟨_, _, rfl, rfl⟩
  | token t s c₁ h =>
    simp only [view]
    have hc₁ := hc.of_view hview
    split
    · -- the closing angle at depth one: the arguments end here, in both
      next ht =>
      exact .inl ⟨_, rfl, rfl, hc₁, floor_le_of_view hc hview (by simp [ht.1])⟩
    · split
      · next ht =>
        have hl₁ := floor_le_of_view hc hview (by
          -- no token of a type argument is the end, so something of the row remains
          rcases ht with rfl | rfl | ht
          · simp
          · simp
          · constructor <;> rintro rfl <;> cases ht)
        exact (typeArguments_cursor hc₁ hl₁ _).bind_after fun _ _ _ _ hplace hlive =>
          .inl ⟨_, rfl, rfl, hplace, hlive⟩
      · exact .inr ⟨_, _, rfl, rfl⟩
termination_by c.remaining

/-- Type arguments that may be missing begin on both sides or on neither. -/
theorem typeArguments?_cursor {c : Cursor} (hc : c.PlaceIn x.whole) (hl : x.floor ≤ c.remaining) :
    x.Follows From.rest (x.fromOf id) c.typeArguments? (x.cursor c).typeArguments? := by
  rw [typeArguments?, typeArguments?, current_cursor hl]
  split
  · exact (typeArguments_cursor hc hl 0).toFrom
  · exact .stay hc hl ()

/-- Qualifiers are passed to corresponding places. -/
theorem qualifiers_cursor {c : Cursor} (hc : c.PlaceIn x.whole) (hl : x.floor ≤ c.remaining) :
    x.Same c.qualifiers (x.cursor c).qualifiers := by
  have hstay := Same.stay hc hl ()
  rw [qualifiers, qualifiers, view_cursor hl]
  cases hview : c.view with
  | stop => exact hstay
  | token t s c₁ h =>
    cases t with
    | dot =>
      have hc₁ := hc.of_view hview
      have hl₁ := floor_le_of_view hc hview (by simp)
      simp only [view, view_cursor hl₁]
      cases hview₁ : c₁.view with
      | stop => exact hstay
      | token t' s' c₂ h' =>
        cases t' with
        -- only a dot with a name behind it is a qualifier; all else stays before the dot
        | identifier name =>
          have hrest := qualifiers_cursor (hc₁.of_view hview₁)
            (floor_le_of_view hc₁ hview₁ (by simp))
          simp only [hrest.eq]
          exact ⟨rfl, hrest.place, hrest.live⟩
        | _ => exact hstay
    | _ => exact hstay
termination_by c.remaining

/-- Dimensions are read to corresponding places. -/
theorem dimensions_cursor {c : Cursor} (hc : c.PlaceIn x.whole) (hl : x.floor ≤ c.remaining)
    (type : TypeRef) : x.Same (c.dimensions type) ((x.cursor c).dimensions type) := by
  have hstay := Same.stay hc hl type
  rw [dimensions, dimensions, view_cursor hl]
  cases hview : c.view with
  | stop => exact hstay
  | token t s c₁ h =>
    cases t with
    | leftBracket =>
      have hc₁ := hc.of_view hview
      have hl₁ := floor_le_of_view hc hview (by simp)
      simp only [view, view_cursor hl₁]
      cases hview₁ : c₁.view with
      | stop => exact hstay
      | token t' s' c₂ h' =>
        cases t' with
        | rightBracket =>
          have hrest := dimensions_cursor (hc₁.of_view hview₁)
            (floor_le_of_view hc₁ hview₁ (by simp)) (.array type)
          simp only [hrest.eq]
          exact ⟨rfl, hrest.place, hrest.live⟩
        | _ => exact hstay
    | _ => exact hstay
termination_by c.remaining

/-- Qualified names are read to corresponding places. -/
theorem qualifiedName_cursor {c : Cursor} (hc : c.PlaceIn x.whole) (hl : x.floor ≤ c.remaining)
    (name : String) :
    x.Follows From.rest (x.fromOf id) (c.qualifiedName name)
      ((x.cursor c).qualifiedName name) := by
  have hstay := Follows.stay hc hl name
  rw [qualifiedName, qualifiedName, view_cursor hl]
  cases hview : c.view with
  | stop => exact hstay
  | token t s c₁ h =>
    cases t with
    | dot =>
      have hc₁ := hc.of_view hview
      have hl₁ := floor_le_of_view hc hview (by simp)
      simp only [view, view_cursor hl₁]
      cases hview₁ : c₁.view with
      | stop => exact hstay
      | token t' s' c₂ h' =>
        cases t' with
        | identifier part =>
          have hl₂ := floor_le_of_view hc₁ hview₁ (by simp)
          refine (typeArguments?_cursor (hc₁.of_view hview₁) hl₂).bind_from
            fun _ c₃ h₃ _ hc₃ hl₃ => ?_
          exact (qualifiedName_cursor hc₃ hl₃ (name ++ "." ++ part)).bind_from
            fun _ _ _ _ hplace hlive => .inl ⟨_, rfl, rfl, hplace, hlive⟩
        | _ => exact hstay
    | _ => exact hstay
termination_by c.remaining

end Extension

end Cursor

end FieldShadow
