import FieldShadow.Proofs.Grammar.Builder

/-!
# Headings that are read while a tree is built

What has to be known of the parser that adds its nodes while it reads is one relation,
`State.Grafts`: from a place on, an action hangs below a node the very outlines that the reader of
the grammar gives there, and ends behind them, or it fails as the reader does. The relation speaks
of a node that is there already. A reader that adds a node of its own and goes on below it is in the
middle of an outline that the grammar has not given yet, so its steps are followed inside of that
node (`State.Grafts.within`, `State.Grafts.follows_within`) until the outline is complete
(`State.Hung.node`).

The readers of this module do not nest: directives, headers, parameters and the headings of types.
-/

namespace FieldShadow

namespace Stateful

variable {whole : Cursor} {ρ σ α : Type}

namespace State

variable {s s' start : State whole} {parent : Nat} {os below : List Outline} {kind : NodeKind}
  {span : Span}

/-- The state with one more node. -/
def added (s : State whole) (parent : Nat) (kind : NodeKind) (span : Span) : State whole :=
  { s with tree := s.tree.add parent kind span }

/-- Adding a node does not move the index. -/
theorem place_added {c : Cursor} (hs : s.place = c) : (s.added parent kind span).place = c :=
  hs

/-- A node is hung below another one when all was hung below itself. -/
theorem Hung.node (h : s.Hung start parent os)
    (hbelow : s'.Hung (s.added parent kind span) s.tree.size below) :
    s'.Hung start parent (os ++ [.node kind span below]) where
  tree_eq := by
    rw [SyntaxTree.graftAll_append, ← h.tree_eq, SyntaxTree.graftAll, SyntaxTree.graftAll,
      SyntaxTree.graft]
    exact hbelow.tree_eq
  errors_eq := hbelow.errors_eq.trans h.errors_eq

end State

open State

/-- What begins at the next token begins with a step that moves the index. -/
theorem State.Follows.of_next {s : State whole} {rest : ρ → Cursor} {value : ρ → α}
    {a : Except SyntaxError ρ} {m : Action whole α} (h : s.next.Follows rest value a m) :
    s.Outcome rest value a (m s.next) := by
  obtain ⟨p, hp⟩ := s.exists_next_eq
  rw [Follows, hp] at h
  rw [hp]
  exact h.of_moved

namespace State.Grafts

open Cursor (After From)

variable {s start base : State whole} {c : Cursor} {parent node : Nat} {os below : List Outline}
  {kind : NodeKind} {span : Span}
  {rest : ρ → Cursor} {outlines : ρ → List Outline} {rest' : σ → Cursor}
  {outlines' : σ → List Outline} {a : Except SyntaxError ρ}

/-- The steps after a step that only moves the index, inside of a node that was begun before. -/
theorem follows_within {value : ρ → α} {f : ρ → Except SyntaxError σ} {m : Action whole α}
    {g : α → Action whole Unit} (h : s.Follows rest value a m) (hs : s.Hung base node below)
    (herrors : base.errors = start.errors)
    (hok : ∀ (r : ρ) (s' : State whole), s'.place = rest r → s'.Hung base node below →
      s'.Grafts start parent rest' outlines' (f r) (g (value r))) :
    s.Grafts start parent rest' outlines' (a >>= f) (m >>= g) := by
  rw [Follows] at h
  rw [Grafts]
  generalize hrun : m s = run at h
  cases h with
  | @ends r p place =>
    rw [bind_of_ok hrun]
    exact hok r _ place (hs.moved p)
  | fails e p =>
    rw [bind_of_error hrun]
    exact .fails e (hs.errors_eq.trans herrors)

/-- The steps after a step that hangs something below a node that was begun before. -/
theorem within {f : ρ → Except SyntaxError σ} {m : Action whole Unit}
    {g : Unit → Action whole Unit} (h : s.Grafts s node rest outlines a m)
    (hs : s.Hung base node below) (herrors : base.errors = start.errors)
    (hok : ∀ (r : ρ) (s' : State whole), s'.place = rest r →
      s'.Hung base node (below ++ outlines r) →
      s'.Grafts start parent rest' outlines' (f r) (g ())) :
    s.Grafts start parent rest' outlines' (a >>= f) (m >>= g) := by
  rw [Grafts] at h ⊢
  generalize hrun : m s = run at h
  cases h with
  | ends place hung =>
    rw [bind_of_ok hrun]
    exact hok _ _ place (hs.append hung)
  | fails e herrors' =>
    rw [bind_of_error hrun]
    exact .fails e ((herrors'.trans hs.errors_eq).trans herrors)

/-- Looking at the state changes nothing. -/
theorem of_get {g : State whole → Action whole Unit}
    (h : s.Grafts start parent rest outlines a (g s)) :
    s.Grafts start parent rest outlines a (get >>= g) :=
  h

/-- Looking ahead changes nothing. -/
theorem of_peek {ahead : Nat} {g : Token → Action whole Unit}
    (h : s.Grafts start parent rest outlines a (g (s.peek ahead))) :
    s.Grafts start parent rest outlines a (Stateful.peek ahead >>= g) :=
  h

/-- Passing a token hangs nothing below any node. -/
theorem of_advance {g : Span → Action whole Unit}
    (h : s.next.Grafts start parent rest outlines a (g s.lexeme.span)) :
    s.Grafts start parent rest outlines a (advance >>= g) :=
  h

/-- A last step hangs something below a node that was added before. -/
theorem carried_node {f : ρ → Except SyntaxError σ} {m : Action whole Unit}
    (h : s.Grafts s base.tree.size rest outlines a m)
    (hs : s.Hung (base.added parent kind span) base.tree.size below)
    (hbase : base.Hung start parent os)
    (hok : ∀ r, ∃ r', f r = .ok r' ∧ rest' r' = rest r ∧
      outlines' r' = os ++ [.node kind span (below ++ outlines r)]) :
    s.Grafts start parent rest' outlines' (a >>= f) m := by
  rw [Grafts] at h ⊢
  generalize m s = run at h
  cases h with
  | @ends r s' place hung =>
    obtain ⟨r', hr', hrest, houtlines⟩ := hok r
    change start.GraftOutcome parent rest' outlines' (f r) _
    rw [hr']
    exact .ends (place.trans hrest.symm) (houtlines ▸ hbase.node (hs.append hung))
  | fails e herrors => exact .fails e ((herrors.trans hs.errors_eq).trans hbase.errors_eq)

/-- The steps after a step that only moves the index and never fails. -/
theorem andThen {value : ρ → α} {r : ρ} {b : Except SyntaxError σ} {m : Action whole α}
    {g : α → Action whole Unit} (h : s.Follows rest value (.ok r) m) (hs : s.Hung start parent os)
    (hok : ∀ s' : State whole, s'.place = rest r → s'.Hung start parent os →
      s'.Grafts start parent rest' outlines' b (g (value r))) :
    s.Grafts start parent rest' outlines' b (m >>= g) := by
  rw [Follows] at h
  rw [Grafts]
  generalize hrun : m s = run at h
  cases h with
  | ends place =>
    rw [bind_of_ok hrun]
    exact hok _ place (hs.moved _)

/-- A run that comes to the same as another one. -/
theorem of_run_eq {m m' : Action whole Unit} {s' : State whole} (h : m s = m' s')
    (h' : s'.Grafts start parent rest outlines a m') : s.Grafts start parent rest outlines a m := by
  rw [Grafts, h]
  exact h'

/-- A demand that is not met is refused as the grammar refuses it. -/
theorem failed (hs : s.place = c) (herrors : s.errors = start.errors) (demand : Demand) :
    s.Grafts start parent rest outlines (.error (c.fault demand)) (fail demand) := by
  rw [Grafts, fail_eq, hs]
  exact .fails _ herrors

/-- That a token was consumed can be forgotten. -/
theorem toFrom {a : Except SyntaxError (After c (List Outline))} {m : Action whole Unit}
    (h : s.Grafts s parent After.rest After.value a m) :
    s.Grafts s parent From.rest From.value (a.map After.toFrom) m :=
  h.carried (f := fun r => .ok r.toFrom) (.refl s parent) fun _ => ⟨_, rfl, rfl, rfl⟩

end State.Grafts

end Stateful

namespace Builder

open Stateful State

open Cursor (After From)

variable {whole : Cursor} {s : State whole} {c : Cursor}

open State.Grafts

/-- What is done behind a node that is added is done in the state with it. -/
theorem grafts_of_addNode {ρ : Type} {start : State whole} {parent parent' : Nat} {kind : NodeKind}
    {span : Span} {rest : ρ → Cursor} {outlines : ρ → List Outline} {a : Except SyntaxError ρ}
    {g : Nat → Action whole Unit}
    (h : (s.added parent' kind span).Grafts start parent rest outlines a (g s.tree.size)) :
    s.Grafts start parent rest outlines a (addNode parent' kind span >>= g) :=
  h

/-- The current stretch is that of the token at the cursor. -/
theorem grafts_of_currentSpan {ρ : Type} {start : State whole} {parent : Nat} {rest : ρ → Cursor}
    {outlines : ρ → List Outline} {a : Except SyntaxError ρ} {g : Span → Action whole Unit}
    (hs : s.place = c) (h : s.Grafts start parent rest outlines a (g c.span)) :
    s.Grafts start parent rest outlines a (currentSpan >>= g) := by
  have hspan : s.lexeme.span = c.span := by rw [s.lexeme_eq, hs]
  rw [← hspan] at h
  exact h

/-- A node in braces is added behind the opening brace, so its children are hung below a node that
is there, and they are all that is between the braces. -/
theorem braces_grafts {opening closing : Mark} {kind : NodeKind}
    {read : (c : Cursor) → Except SyntaxError (From c (List Outline))}
    {children : Nat → Action whole Unit} (hs : s.place = c)
    (hchildren : ∀ {s : State whole} {d : Cursor}, s.place = d → d.Behind c → ∀ node,
      s.Grafts s node From.rest From.value (read d) (children node)) (parent : Nat) :
    s.Grafts s parent After.rest (fun r => [r.value]) (Cursor.braces opening closing kind read c)
      (braces opening closing kind children parent) := by
  refine bind_follows (expect_follows hs opening) (.refl s parent) fun r₁ s₁ hs₁ hg₁ => ?_
  obtain ⟨span, c₁, h₁⟩ := r₁
  refine grafts_of_addNode ?_
  refine (hchildren (place_added hs₁) h₁ s₁.tree.size).within (.refl _ _)
    hg₁.errors_eq fun r₂ s₂ hs₂ hg₂ => ?_
  obtain ⟨below, c₂, h₂⟩ := r₂
  exact follows_within (expect_follows hs₂ closing) hg₂ hg₁.errors_eq fun _ s₃ hs₃ hg₃ =>
    .done hs₃ (hg₁.node hg₃)

/-! ## Single tokens -/

/-- A token is passed if it stands here; if not, the state stays. -/
theorem accept_cases (hs : s.place = c) {t : Token} (ht : t ≠ .eof) :
    (∃ r, c.accept? t = some r ∧ s.next.place = r.rest ∧ accept t s = some (.ok true, s.next)) ∨
    (c.accept? t = none ∧ accept t s = some (.ok false, s)) := by
  have hrun : accept t s = (if s.lexeme.token = t then do let _ ← advance; return true
    else return false : Action whole Bool) s := rfl
  rcases accept?_cases hs ht with ⟨htoken, r, haccept, hs', -⟩ | ⟨htoken, haccept⟩
  · exact .inl ⟨r, haccept, hs', by rw [hrun, if_pos htoken]; rfl⟩
  · exact .inr ⟨haccept, by rw [hrun, if_neg htoken]; rfl⟩

/-- What is done behind a token is done where the token stands, and nothing is done elsewhere. -/
theorem whenAccepted_cases (hs : s.place = c) {t : Token} (ht : t ≠ .eof)
    (action : Action whole Unit) :
    (∃ r, c.accept? t = some r ∧ s.next.place = r.rest ∧
      whenAccepted t action s = action s.next) ∨
    (c.accept? t = none ∧ whenAccepted t action s = some (.ok (), s)) := by
  rcases accept_cases hs ht with ⟨r, haccept, hs', hrun⟩ | ⟨haccept, hrun⟩
  · exact .inl ⟨r, haccept, hs', bind_of_ok hrun _⟩
  · exact .inr ⟨haccept, bind_of_ok hrun _⟩

/-- What is done only where a token stands, is read only there. -/
theorem whenAt_grafts {t : Token} {parent : Nat} {a : Except SyntaxError (From c (List Outline))}
    {action : Action whole Unit} (hs : s.place = c)
    (h : c.current = t → s.Grafts s parent From.rest From.value a action) :
    s.Grafts s parent From.rest From.value
      (if c.current = t then a else pure (c.stay [])) (whenAt t action) := by
  refine of_current ?_
  rw [token_eq hs]
  by_cases ht : c.current = t
  · rw [if_pos ht, if_pos ht]
    exact h ht
  · rw [if_neg ht, if_neg ht]
    exact .done hs (.refl s parent)

/-- What is done only where a token does not stand, is not read where it does. -/
theorem unlessAt_grafts {t : Token} {parent : Nat} {a : Except SyntaxError (From c (List Outline))}
    {action : Action whole Unit} (hs : s.place = c)
    (h : s.Grafts s parent From.rest From.value a action) :
    s.Grafts s parent From.rest From.value
      (if c.current = t then pure (c.stay []) else a) (unlessAt t action) := by
  refine of_current ?_
  rw [token_eq hs]
  by_cases ht : c.current = t
  · rw [if_pos ht, if_pos ht]
    exact .done hs (.refl s parent)
  · rw [if_neg ht, if_neg ht]
    exact h

/-! ## What is passed over -/

section

open State.Follows

/-- A directive is passed as the grammar passes it. -/
theorem directive_follows (hs : s.place = c) :
    s.Follows After.rest After.value c.directive (directive ()) := by
  refine loop_follows (fun _ => After.rest) (fun _ _ => After.value) (fun c _ => c.directive)
    (fun c s _ again hs hagain => .of_current ?_) hs ()
  rw [Cursor.directive]
  split
  · next hview =>
    rw [token_of_view_stop hs hview]
    exact .failed hs _
  · next t _ c₁ h₁ hview =>
    have hs₁ := next_of_view hs hview
    rw [token_of_view hs hview]
    by_cases hsemicolon : t = .semicolon
    · obtain rfl := hsemicolon
      rw [if_pos rfl]
      exact .of_advance (.done hs₁ rfl)
    · rw [if_neg hsemicolon]
      split
      · exact absurd rfl hsemicolon
      · exact absurd rfl (Cursor.eq_cons_of_view hview).1
      · exact .of_advance ((hagain _ _ () hs₁ h₁).carried fun r => ⟨_, rfl, rfl, rfl⟩)

/-- The rest of a header is passed as the grammar passes it. -/
theorem header_follows (hs : s.place = c) :
    s.Follows From.rest From.value c.header (header ()) := by
  refine loop_follows (fun _ => From.rest) (fun _ _ => From.value) (fun c _ => c.header)
    (fun c s _ again hs hagain => .of_current ?_) hs ()
  rw [Cursor.header]
  -- what stops the loop comes before what it steps over, in the order the cursor asks
  split
  · next hview =>
    rw [token_of_view_stop hs hview]
    exact .failed hs _
  · next t _ c₁ h₁ hview =>
    have hs₁ := next_of_view hs hview
    rw [token_of_view hs hview]
    by_cases hbrace : t = .leftBrace
    · obtain rfl := hbrace
      rw [if_pos rfl]
      exact .done hs rfl
    · rw [if_neg hbrace]
      by_cases hsemicolon : t = .semicolon
      · obtain rfl := hsemicolon
        rw [if_pos rfl]
        exact .failed hs _
      · rw [if_neg hsemicolon]
        split
        · -- the first three patterns are excluded already; only the step remains
          exact absurd rfl hbrace
        · exact absurd rfl (Cursor.eq_cons_of_view hview).1
        · exact absurd rfl hsemicolon
        · exact .of_advance ((hagain _ _ () hs₁ h₁).carried fun r => ⟨_, rfl, rfl, rfl⟩)

/-- Further types of a handler are passed as the grammar passes them. -/
theorem catchAlternatives_follows (hs : s.place = c) :
    s.Follows From.rest From.value c.catchAlternatives (catchAlternatives ()) := by
  refine loop_follows (fun _ => From.rest) (fun _ _ => From.value) (fun c _ => c.catchAlternatives)
    (fun c s _ again hs hagain => ?_) hs ()
  rw [Cursor.catchAlternatives]
  rcases whenAccepted_cases hs (t := .operator "|") (by simp)
      (do let _ ← typeRef; again ()) with ⟨⟨_, c₁, h₁⟩, haccept, hs₁, hrun⟩ | ⟨haccept, hrun⟩
  · rw [haccept, Follows, hrun]
    refine of_next ((typeRef_follows hs₁).bind_after fun _ c₂ h₂ s₂ hs₂ => ?_)
    exact (hagain _ _ () hs₂ (h₂.trans h₁)).carried fun r => ⟨_, rfl, rfl, rfl⟩
  · rw [haccept, Follows, hrun]
    exact .ends hs

/-- The word that a type begins with is one token, or two for an annotation type. -/
theorem headingStart_follows (hs : s.place = c) :
    s.Follows From.rest From.value (.ok c.headingStart) headingStart := by
  refine .of_current (.of_peek (.of_advance ?_))
  have hs₁ : s.next.place = c.skip := by rw [place_next, hs]
  rw [token_eq hs, peek_eq hs, Cursor.headingStart]
  by_cases hword : c.current = .at ∧ c.following = .keyword .interface
  · have hs₂ : s.next.next.place = c.skip.skip := by rw [place_next, hs₁]
    simp only [hword, and_self, if_true, beq_self_eq_true, Bool.and_self]
    exact .of_advance (.done hs₂ rfl)
  · rw [if_neg hword, if_neg (by simpa using hword)]
    exact .done hs₁ rfl

/-- The heading of a type is read as the grammar reads it. The word that it began with is asked for
behind the name in both. -/
theorem typeHeading_follows (hs : s.place = c) (ms : List Modifier) :
    s.Follows After.rest After.value (c.typeHeading ms) (typeHeading ms) := by
  rw [Cursor.typeHeading_eq]
  refine .of_get ((headingStart_follows hs).andThen fun s₁ hs₁ => ?_)
  have hfirst : s.lexeme = ⟨c.current, c.span⟩ := by rw [s.lexeme_eq, hs]
  rw [hfirst]
  generalize c.headingStart = start at hs₁ ⊢
  obtain ⟨_, c₁, h₁⟩ := start
  refine (identifier_follows hs₁ _).bind_after fun _ c₂ h₂ s₂ hs₂ => ?_
  refine (header_follows hs₂).bind_from fun _ c₃ h₃ s₃ hs₃ => ?_
  dsimp only
  rw [Cursor.fault]
  generalize c.current = first
  -- the same words are told apart on both sides
  cases first with
  | keyword word => cases word <;> first | exact .done hs₃ rfl | exact .fails _ s₃.position
  | «at» => exact .done hs₃ rfl
  | _ => exact .fails _ s₃.position

end

/-! ## Parameters -/

/-- An ellipsis makes the type an array. -/
theorem variadic_follows (hs : s.place = c) (type : TypeRef) :
    s.Follows From.rest From.value (.ok (c.variadic type)) (variadic type) := by
  rw [Cursor.variadic, Follows]
  rcases accept_cases hs (t := .ellipsis) (by simp) with
    ⟨r, haccept, hs', hrun⟩ | ⟨haccept, hrun⟩
  · rw [haccept, variadic, bind_of_ok hrun]
    exact Follows.of_next (.done hs' rfl)
  · rw [haccept, variadic, bind_of_ok hrun]
    exact Follows.done hs rfl

/-- A parameter is hung below its list, unless it is the receiver. -/
theorem parameter_grafts (hs : s.place = c) (parent : Nat) :
    s.Grafts s parent After.rest After.value c.parameter (parameter parent) := by
  rw [Cursor.parameter_eq]
  refine bind_follows (modifiers_follows hs []) (.refl s parent) fun r₁ s₁ hs₁ hg₁ => ?_
  obtain ⟨ms, c₁, h₁⟩ := r₁
  refine bind_follows (typeRef_follows hs₁) hg₁ fun r₂ s₂ hs₂ hg₂ => ?_
  obtain ⟨base, c₂, h₂⟩ := r₂
  refine andThen (variadic_follows hs₂ base) hg₂ fun s₃ hs₃ hg₃ => ?_
  dsimp only
  generalize c₂.variadic base = typed at hs₃ ⊢
  obtain ⟨type, c₃, h₃⟩ := typed
  rcases accept_cases hs₃ (t := .keyword .this) (by simp) with
    ⟨r₄, haccept, hs₄, hrun⟩ | ⟨haccept, hrun⟩
  · rw [haccept]
    exact of_run_eq (bind_of_ok hrun _) (.done hs₄ hg₃.next)
  · rw [haccept]
    refine of_run_eq (bind_of_ok hrun _) ?_
    refine bind_follows (identifier_follows hs₃ _) hg₃ fun r₄ s₄ hs₄ hg₄ => ?_
    obtain ⟨⟨name, span⟩, c₄, h₄⟩ := r₄
    refine andThen (dimensions_follows hs₄ type) hg₄ fun s₅ hs₅ hg₅ => ?_
    exact grafts_of_addNode (.done hs₅ (hg₅.node (.refl _ _)))

/-- A loop hangs below a node what a reader gives if a round of it does whenever the rounds behind
it do. It is enough that this is so for cursors with at most `n` tokens, where the loop begins. -/
theorem loop_grafts {σ : Type} {body : (σ → Action whole Unit) → σ → Action whole Unit}
    {ρ : Cursor → Type} (rest : ∀ c, ρ c → Cursor) (outlines : ∀ c, ρ c → List Outline)
    (read : ∀ c, σ → Except SyntaxError (ρ c)) {parent n : Nat}
    (hbody : ∀ (c : Cursor) (s : State whole) (x : σ) (again : σ → Action whole Unit),
      s.place = c → c.remaining ≤ n →
      (∀ (d : Cursor) (s' : State whole) (y : σ), s'.place = d → d.Behind c →
        s'.Grafts s' parent (rest d) (outlines d) (read d y) (again y)) →
      s.Grafts s parent (rest c) (outlines c) (read c x) (body again x))
    (hs : s.place = c) (hn : c.remaining ≤ n) (x : σ) :
    s.Grafts s parent (rest c) (outlines c) (read c x) (loop body x) :=
  loop_induction id
    (P := fun c s x run => c.remaining ≤ n →
      s.GraftOutcome parent (rest c) (outlines c) (read c x) run)
    (fun c s x again hs hagain hn => hbody c s x again hs hn fun d s' y hs' hd =>
      hagain d s' y hs' hd (Nat.le_trans hd.le hn)) hs x hn

/-- Parameters are hung below their list in their order. -/
theorem parameterList_grafts (hs : s.place = c) (parent : Nat) :
    s.Grafts s parent After.rest After.value c.parameterList (parameterList parent ()) := by
  refine loop_grafts (fun _ => After.rest) (fun _ => After.value) (fun c _ => c.parameterList)
    (fun c s _ again hs _ hagain => ?_) hs (Nat.le_refl _) ()
  rw [Cursor.parameterList]
  refine (parameter_grafts hs parent).bind (.refl s parent) fun r₁ s₁ hs₁ hg₁ => ?_
  obtain ⟨first, c₁, h₁⟩ := r₁
  rcases whenAccepted_cases hs₁ (t := .comma) (by simp) (again ()) with
    ⟨r₂, haccept, hs₂, hrun⟩ | ⟨haccept, hrun⟩
  · obtain ⟨_, c₂, h₂⟩ := r₂
    dsimp only
    rw [haccept]
    refine of_run_eq hrun ?_
    exact (hagain c₂ _ () hs₂ (h₂.trans h₁)).carried hg₁.next fun r => ⟨_, rfl, rfl, rfl⟩
  · dsimp only
    rw [haccept]
    exact of_run_eq hrun (.done hs₁ hg₁)

/-- The list is added behind its parenthesis, in front of all of its parameters. -/
theorem parameters_grafts (hs : s.place = c) (owner : Nat) :
    s.Grafts s owner After.rest (fun r => [r.value]) c.parameters (parameters owner) := by
  refine bind_follows (expect_follows hs _) (.refl s owner) fun r₁ s₁ hs₁ hg₁ => ?_
  obtain ⟨opening, c₁, h₁⟩ := r₁
  refine grafts_of_addNode ?_
  dsimp only
  rw [← ite_bind]
  refine within
    (unlessAt_grafts (place_added hs₁) (parameterList_grafts (place_added hs₁) _).toFrom)
    (.refl _ _) hg₁.errors_eq fun r₂ s₂ hs₂ hg₂ => ?_
  obtain ⟨ps, c₂, h₂⟩ := r₂
  exact follows_within (expect_follows hs₂ _) hg₂ hg₁.errors_eq fun _ s₃ hs₃ hg₃ =>
    .done hs₃ (hg₁.node hg₃)

end Builder

end FieldShadow
