import FieldShadow.Grammar.Cursor
import FieldShadow.Proofs.Result

/-!
# Single tokens

What a cursor sees. Where the tokens are known, the readers of single tokens compute; where they are
not, the view of a cursor tells the current token and the place behind it. An `eof` inside the
sequence is seen as its end.
-/

namespace FieldShadow

@[simp] theorem bind_ok {ε α β : Type} (a : α) (f : α → Except ε β) :
    (Except.ok a >>= f) = f a := rfl

@[simp] theorem pure_eq_ok {ε α : Type} (a : α) : (pure a : Except ε α) = .ok a := rfl

namespace Cursor

variable {t : Token} {s stop : Span} {rest : List Lexeme}

@[simp] theorem current_cons : (mk (⟨t, s⟩ :: rest) stop).current = t := rfl

@[simp] theorem span_cons : (mk (⟨t, s⟩ :: rest) stop).span = s := rfl

@[simp] theorem skip_cons : (mk (⟨t, s⟩ :: rest) stop).skip = mk rest stop := rfl

@[simp] theorem following_cons :
    (mk (⟨t, s⟩ :: rest) stop).following = (mk rest stop).current := rfl

/-- Behind a first token is behind the start. -/
theorem behind_cons (l : Lexeme) (rest : List Lexeme) (stop : Span) :
    (mk rest stop).Behind (mk (l :: rest) stop) :=
  Nat.lt_succ_self _

@[simp] theorem view_cons (h : t ≠ .eof) :
    (mk (⟨t, s⟩ :: rest) stop).view = .token t s ⟨rest, stop⟩ (behind_cons _ _ _) := by
  simp [view, h]

/-- At the end nothing is seen. -/
theorem view_eq_stop {c : Cursor} (h : c.current = .eof) : c.view = .stop := by
  obtain ⟨pending, stop⟩ := c
  cases pending with
  | nil => rfl
  | cons l rest =>
    have heof : l.token = .eof := h
    simp [view, heof]

/-- What is seen is current. -/
theorem current_of_view {c c' : Cursor} {t : Token} {s : Span} {h : c'.Behind c}
    (hview : c.view = .token t s c' h) : c.current = t := by
  obtain ⟨pending, stop⟩ := c
  cases pending with
  | nil => exact nomatch hview
  | cons l rest =>
    by_cases heof : (mk (l :: rest) stop).current = .eof
    · rw [view_eq_stop heof] at hview
      exact nomatch hview
    · have hview' : (mk (l :: rest) stop).view = _ := view_cons heof
      rw [hview'] at hview
      exact (View.token.inj hview).1

/-- Where nothing is seen the end is current. -/
theorem current_of_view_stop {c : Cursor} (hview : c.view = .stop) : c.current = .eof := by
  obtain ⟨pending, stop⟩ := c
  cases pending with
  | nil => rfl
  | cons l rest =>
    by_cases heof : (mk (l :: rest) stop).current = .eof
    · exact heof
    · have hview' : (mk (l :: rest) stop).view = _ := view_cons heof
      rw [hview'] at hview
      exact nomatch hview

/-- A skip passes what is seen. -/
theorem skip_of_view {c c' : Cursor} {t : Token} {s : Span} {h : c'.Behind c}
    (hview : c.view = .token t s c' h) : c' = c.skip := by
  obtain ⟨pending, stop⟩ := c
  cases pending with
  | nil => exact nomatch hview
  | cons l rest =>
    by_cases heof : (mk (l :: rest) stop).current = .eof
    · rw [view_eq_stop heof] at hview
      exact nomatch hview
    · have hview' : (mk (l :: rest) stop).view = _ := view_cons heof
      rw [hview'] at hview
      exact (View.token.inj hview).2.2.symm

/-- What follows is current behind what is seen. -/
theorem following_of_view {c c' : Cursor} {t : Token} {s : Span} {h : c'.Behind c}
    (hview : c.view = .token t s c' h) : c.following = c'.current := by
  rw [following, ← skip_of_view hview]

/-- A token that is not the end is seen with the place behind it. -/
theorem exists_view_of_current {c : Cursor} {t : Token} (h : c.current = t) (ht : t ≠ .eof) :
    ∃ s c' behind, c.view = .token t s c' behind := by
  cases hview : c.view with
  | stop => exact absurd (h.symm.trans (current_of_view_stop hview)) ht
  | token t' s c' behind =>
    obtain rfl := (current_of_view hview).symm.trans h
    exact ⟨s, c', behind, rfl⟩

/-- A current token that is not the end is the first of the pending ones. -/
theorem eq_cons_of_current {pending : List Lexeme} (h : (mk pending stop).current = t)
    (ht : t ≠ .eof) : ∃ s rest, pending = ⟨t, s⟩ :: rest := by
  cases pending with
  | nil => exact absurd h.symm ht
  | cons l rest => exact ⟨l.span, rest, by rw [← h]; rfl⟩

@[simp] theorem accept?_cons (h : t ≠ .eof) (t' : Token) :
    (mk (⟨t, s⟩ :: rest) stop).accept? t' =
      if t = t' then some ⟨s, ⟨rest, stop⟩, behind_cons _ _ _⟩ else none := by
  simp [accept?, view_cons h]

/-- A token that is not current is not accepted. -/
theorem accept?_eq_none {c : Cursor} (h : c.current ≠ t) : c.accept? t = none := by
  unfold accept?
  split
  · rfl
  · next hview => exact if_neg fun heq => h ((current_of_view hview).trans heq)

@[simp] theorem expect_cons (h : t ≠ .eof) (m : Mark) :
    (mk (⟨t, s⟩ :: rest) stop).expect m =
      if t = m.token then .ok ⟨s, ⟨rest, stop⟩, behind_cons _ _ _⟩
      else .error ((mk (⟨t, s⟩ :: rest) stop).fault (.mark m)) := by
  by_cases ht : t = m.token <;> simp [expect, accept?_cons h, ht]

@[simp] theorem name_cons {name : String} (role : NameRole) :
    (mk (⟨.identifier name, s⟩ :: rest) stop).name role =
      .ok ⟨(name, s), ⟨rest, stop⟩, behind_cons _ _ _⟩ := by
  simp [Cursor.name]

attribute [simp] Mark.token

end Cursor

end FieldShadow
