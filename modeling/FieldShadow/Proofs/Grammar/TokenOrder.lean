import FieldShadow.Proofs.Grammar.Conformance
import FieldShadow.Proofs.Grammar.Extension.Declaration
import FieldShadow.Proofs.SyntaxTree.Drawn

/-!
# Nodes in the order of the tokens

Whatever is read from some tokens is drawn from them (`drawn_of_declarations`): every node has its
span from one token, or from the first and the last of its heading, and from left to right these
tokens stand in the order of the text. Readers that try a declaration and then go back for an
expression do not spoil this: what they read the first time leaves no node.

## Shape of the argument

A reading from `c` to `d` that gives `os` crosses the tokens between the two places, and `os` is
drawn from exactly these (`Cursor.Crosses c d os`). The relation composes: readings one after the
other cross what they cross together and give their outlines in a row. So each reader is taken apart
into the readings of its parts, in the order in which its definition binds them, and put together
again.

A reader leaves a node in one of four ways: named by a token in front of its parts
(`Crosses.named`), marked by a word without a name (`Crosses.marked`), from the first word of a
heading to its name (`Crosses.headed`), and around a single node with the same place
(`Crosses.around`). Readers that leave none need no case of their own: that they stay in the tokens
is all there is to know (`Crosses.of_follows`, `Crosses.of_placeIn`).

The readers that nest are proved together for all cursors with fewer than `n` tokens
(`crossesBelow`), by induction on `n`.
-/

namespace FieldShadow

namespace Cursor

open Extension Outline

/-! ## From one place to a later one -/

/-- The one token between two places. -/
def Takes (c d : Cursor) (l : Lexeme) : Prop :=
  c.pending = l :: d.pending

/-- The way from one place to a later one comes past tokens that these outlines are drawn from. -/
def Crosses (c d : Cursor) (os : List Outline) : Prop :=
  ∃ read, c.pending = read ++ d.pending ∧ Drawn read os

variable {b c d e : Cursor} {os os' : List Outline}

theorem Crosses.refl (c : Cursor) : c.Crosses c [] :=
  ⟨[], rfl, .passed []⟩

/-- What is drawn on two ways behind each other is drawn on the whole way, in this order. -/
theorem Crosses.trans (h : c.Crosses d os) (h' : d.Crosses e os') : c.Crosses e (os ++ os') := by
  obtain ⟨read, hread, hdrawn⟩ := h
  obtain ⟨read', hread', hdrawn'⟩ := h'
  exact ⟨read ++ read', by rw [hread, hread', List.append_assoc], hdrawn.append hdrawn'⟩

/-- Further tokens that leave no node. -/
theorem Crosses.on (h : c.Crosses d os) (h' : d.Crosses e []) : c.Crosses e os := by
  simpa using h.trans h'

/-- Tokens may be passed that nothing is drawn from. -/
theorem Crosses.of_placeIn (h : d.PlaceIn c) : c.Crosses d [] := by
  obtain ⟨read, hread⟩ := h.suffix
  exact ⟨read, hread.symm, .passed read⟩

/-- A single token may be passed without drawing anything from it. -/
theorem Takes.crosses {l : Lexeme} (h : c.Takes d l) : c.Crosses d [] :=
  ⟨[l], h, .passed [l]⟩

/-- A node that an identifier names. -/
theorem Crosses.named {name : String} {s : Span} {kind : NodeKind}
    (hname : c.Takes d ⟨.identifier name, s⟩) (hkind : kind.name? = some name)
    (h : d.Crosses e os) : c.Crosses e [.node kind s os] := by
  obtain ⟨read, hread, hdrawn⟩ := h
  exact ⟨_ :: read, by rw [hname, hread, List.cons_append], hdrawn.named hkind⟩

/-- A node that begins with a bracket or a word. -/
theorem Crosses.marked {l : Lexeme} {kind : NodeKind} (hl : c.Takes d l)
    (hkind : kind.name? = none) (h : d.Crosses e os) : c.Crosses e [.node kind l.span os] := by
  obtain ⟨read, hread, hdrawn⟩ := h
  exact ⟨l :: read, by rw [hl, hread, List.cons_append], hdrawn.marked hkind⟩

/-- A node around one other that begins where this one does. -/
theorem Crosses.around {kind inner : NodeKind} {s : Span} (hkind : kind.name? = none)
    (h : c.Crosses d [.node inner s os]) : c.Crosses d [.node kind s [.node inner s os]] := by
  obtain ⟨read, hread, hdrawn⟩ := h
  exact ⟨read, hread, hdrawn.around hkind⟩

/-- A reader that stays where it is draws nothing. -/
theorem crosses_stay (c : Cursor) :
    c.Crosses (c.stay ([] : List Outline)).rest (c.stay ([] : List Outline)).value :=
  .refl c

/-- A row of things that are each drawn on their way is drawn from left to right. -/
theorem crosses_row {n : Nat} {enclosure : Enclosure}
    {one : (c : Cursor) → Except SyntaxError (After c (List Outline))}
    {row : (c : Cursor) → Except SyntaxError (From c (List Outline))}
    (hrow : ReadsRow enclosure one row)
    (hone : ∀ {c : Cursor} {r : After c (List Outline)}, c.remaining < n → one c = .ok r →
      c.Crosses r.rest r.value)
    {c : Cursor} {r : From c (List Outline)} (hc : c.remaining < n) (h : row c = .ok r) :
    c.Crosses r.rest r.value := by
  refine hrow.induction (motive := fun c r => c.remaining < n → c.Crosses r.rest r.value) ?_ ?_ h hc
  · exact fun c _ _ => crosses_stay c
  · intro c first others _ _ hfirst hothers hc
    exact (hone hc hfirst).trans (hothers (Nat.lt_trans first.behind hc))

/-- The token that is seen is the one that is passed. -/
theorem takes_view {t : Token} {s : Span} {h : d.Behind c} (hview : c.view = .token t s d h) :
    c.Takes d ⟨t, s⟩ := by
  obtain ⟨-, rfl⟩ := eq_cons_of_view hview
  rfl

/-- A token that is accepted is passed, with its stretch. -/
theorem takes_accept? {t : Token} {r : After c Span} (h : c.accept? t = some r) :
    c.Takes r.rest ⟨t, r.value⟩ := by
  unfold accept? at h
  split at h
  · cases h
  · next hview =>
    split at h
    · next ht =>
      obtain rfl := Option.some.inj h
      exact ht ▸ takes_view hview
    · cases h

/-- A mark that is read is passed, with its stretch. -/
theorem takes_expect {m : Mark} {r : After c Span} (h : c.expect m = .ok r) :
    c.Takes r.rest ⟨m.token, r.value⟩ := by
  unfold expect at h
  split at h
  · next haccept =>
    obtain rfl := Except.ok.inj h
    exact takes_accept? haccept
  · cases h

/-- An identifier that is read is passed, with its name and its stretch. -/
theorem takes_name {role : NameRole} {r : After c (String × Span)} (h : c.name role = .ok r) :
    c.Takes r.rest ⟨.identifier r.value.1, r.value.2⟩ := by
  unfold name at h
  split at h
  · next hview =>
    obtain rfl := Except.ok.inj h
    exact takes_view hview
  · cases h

/-- The stretch of a cursor is that of the token which is passed there. -/
theorem Takes.span_eq {l : Lexeme} (h : c.Takes d l) : c.span = l.span := by
  rw [span, h]

/-- A token that is seen may be passed without drawing anything from it. -/
theorem Crosses.of_view {t : Token} {s : Span} {h : d.Behind c} (hview : c.view = .token t s d h) :
    c.Crosses d [] :=
  (takes_view hview).crosses

/-- A token that is accepted need not leave a node. -/
theorem crosses_accept? {t : Token} {r : After c Span} (h : c.accept? t = some r) :
    c.Crosses r.rest [] :=
  (takes_accept? h).crosses

/-- A mark need not leave a node. -/
theorem crosses_expect {m : Mark} {r : After c Span} (h : c.expect m = .ok r) :
    c.Crosses r.rest [] :=
  (takes_expect h).crosses

/-! ## What leaves no node

Where these readers end is known from what they read in front of further tokens. Here there are no
further tokens.
-/

/-- The rest of the tokens, as it is. -/
def alone (c : Cursor) : Extension :=
  .alone c id (fun _ _ => rfl) c.stop

/-- What is known to stay in the sequence goes forward in it. So readers that leave no node need no
proof of their own. -/
theorem Crosses.of_follows {ρ ρ' : Type} {rest : ρ → Cursor} {image : ρ → ρ'}
    {a : Except SyntaxError ρ} {b : Except SyntaxError ρ'} (h : c.alone.Follows rest image a b)
    {r : ρ} (ha : a = .ok r) : c.Crosses (rest r) [] :=
  .of_placeIn (h.of_ok ha).2.1

/-- Modifiers and annotations leave no node. -/
theorem crosses_modifiers {r : From c (List Modifier)} (h : c.modifiers = .ok r) :
    c.Crosses r.rest [] :=
  .of_follows (modifiers_cursor (.refl c) (Nat.zero_le _)) h

/-- A type leaves no node. It is a part of the node of what it belongs to. -/
theorem crosses_typeRef {r : After c TypeRef} (h : c.typeRef = .ok r) : c.Crosses r.rest [] :=
  .of_follows (typeRef_cursor (.refl c) (Nat.zero_le _)) h

/-- Type arguments leave no node. -/
theorem crosses_typeArguments? {r : From c Unit} (h : c.typeArguments? = .ok r) :
    c.Crosses r.rest [] :=
  .of_follows (typeArguments?_cursor (.refl c) (Nat.zero_le _)) h

/-- Dimensions leave no node. -/
theorem crosses_dimensions (c : Cursor) (type : TypeRef) :
    c.Crosses (c.dimensions type).rest [] :=
  .of_placeIn (dimensions_cursor (x := c.alone) (.refl c) (Nat.zero_le _) type).place

/-- An ellipsis leaves no node. -/
theorem crosses_variadic (c : Cursor) (type : TypeRef) : c.Crosses (c.variadic type).rest [] :=
  .of_placeIn (variadic_cursor (x := c.alone) (.refl c) (Nat.zero_le _) type).place

/-- A header leaves no node. -/
theorem crosses_header {r : From c Unit} (h : c.header = .ok r) : c.Crosses r.rest [] :=
  .of_placeIn (header_cursor (x := c.alone) h (.refl c)).2

/-- The clauses of a method leave no node. -/
theorem crosses_methodClauses {r : From c Unit} (h : c.methodClauses = .ok r) :
    c.Crosses r.rest [] :=
  .of_placeIn (methodClauses_cursor (x := c.alone) h (.refl c)).2

/-- Further types of a handler leave no node. -/
theorem crosses_catchAlternatives {r : From c Unit} (h : c.catchAlternatives = .ok r) :
    c.Crosses r.rest [] :=
  .of_placeIn (catchAlternatives_cursor (x := c.alone) h (.refl c) (Nat.zero_le _)).2

/-- A directive leaves no node. -/
theorem crosses_directive {r : After c Unit} (h : c.directive = .ok r) : c.Crosses r.rest [] :=
  .of_placeIn (directive_cursor (x := c.alone) h (.refl c)).2

/-- The heading of a variable leaves no node by itself. -/
theorem crosses_declarationHead? {follow : List Token} {r : After c (List Modifier × TypeRef)}
    (h : c.declarationHead? follow = some r) : c.Crosses r.rest [] := by
  rcases declarationHead?_cursor (x := c.alone) (.refl c) (Nat.zero_le _) follow with
    ⟨r', hr', -, hplace, -⟩ | ⟨hnone, -⟩
  · obtain rfl := Option.some.inj (h.symm.trans hr')
    exact .of_placeIn hplace
  · cases h.symm.trans hnone

/-! ## Headings -/

/-- The word that a heading begins with, and up to one more in front of the name. -/
theorem exists_headingStart (h : c.pending ≠ []) :
    ∃ first ls, c.pending = first :: ls ++ c.headingStart.rest.pending ∧ c.span = first.span := by
  obtain ⟨first, rest, hpending⟩ := List.exists_cons_of_ne_nil h
  have hspan : c.span = first.span := by rw [span, hpending]
  have hskip : c.skip.pending = rest := by rw [skip, hpending, List.tail_cons]
  unfold headingStart
  split
  · refine ⟨first, rest.take 1, ?_, hspan⟩
    have htail : c.skip.skip.pending = rest.drop 1 := by rw [skip, hskip, List.drop_one]
    rw [hpending, htail, List.cons_append, List.take_append_drop]
  · exact ⟨first, [], by rw [hpending, hskip]; rfl, hspan⟩

/-- A node with the heading of a type. -/
theorem Crosses.headed {ms : List Modifier} {r : After c (NodeKind × Span)}
    (hheading : c.typeHeading ms = .ok r) (h : r.rest.Crosses e os) :
    c.Crosses e [.node r.value.1 r.value.2 os] := by
  have hkind := NodeKind.declares?_of_isType (isType_typeHeading hheading)
  rw [typeHeading_eq] at hheading
  obtain ⟨⟨⟨name, s⟩, c₂, h₂⟩, hname, hheading⟩ := bind_eq_ok.mp hheading
  obtain ⟨⟨_, c₃, h₃⟩, hheader, hheading⟩ := bind_eq_ok.mp hheading
  have hname : c.headingStart.rest.Takes c₂ ⟨.identifier name, s⟩ := takes_name hname
  -- the four words that begin a type give the same span, from the first word to the name
  obtain ⟨hne, hvalue, hrest⟩ : c.current ≠ .eof ∧ r.value.2 = c.span.to s ∧ r.rest = c₃ := by
    dsimp only at hheading
    split at hheading
    case h_5 => cases hheading
    case h_1 hcurrent | h_2 hcurrent | h_3 hcurrent | h_4 hcurrent =>
      obtain rfl := Except.ok.inj hheading
      exact ⟨by simp [hcurrent], rfl, rfl⟩
  obtain ⟨first, ls, hpending, hspan⟩ := exists_headingStart fun hnil => hne (by rw [current, hnil])
  rw [hrest] at h
  obtain ⟨read, hread, hdrawn⟩ := (crosses_header hheader).trans h
  -- the node's tokens are those of the heading, its name, and what its body reads
  refine ⟨first :: ls ++ ⟨.identifier name, s⟩ :: read, ?_, ?_⟩
  · have hread : c₂.pending = read ++ e.pending := hread
    rw [hpending, hname, hread]
    simp
  · rw [hvalue, hspan]
    exact hdrawn.headed hkind

/-- A parameter is drawn from its name. In front of the name are only tokens that leave no node. -/
theorem crosses_parameter {r : After c (List Outline)} (h : c.parameter = .ok r) :
    c.Crosses r.rest r.value := by
  rw [parameter_eq] at h
  obtain ⟨⟨ms, c₁, h₁⟩, hms, h⟩ := bind_eq_ok.mp h
  obtain ⟨⟨type, c₂, h₂⟩, htype, h⟩ := bind_eq_ok.mp h
  have hhead := (crosses_modifiers hms).trans (crosses_typeRef htype)
  dsimp only at h
  have hvariadic := c₂.crosses_variadic type
  generalize c₂.variadic type = variadic at h hvariadic
  obtain ⟨type', c₃, h₃⟩ := variadic
  dsimp only at h
  split at h
  · next hthis =>
    obtain rfl := Except.ok.inj h
    simpa using (hhead.trans hvariadic).trans (crosses_accept? hthis)
  · obtain ⟨⟨⟨name, span⟩, c₄, h₄⟩, hname, h⟩ := bind_eq_ok.mp h
    obtain rfl := Except.ok.inj h
    exact (hhead.trans hvariadic).trans
      (.named (takes_name hname) rfl (c₄.crosses_dimensions type'))

/-- Parameters are drawn from left to right. -/
theorem crosses_parameterList {c : Cursor} {r : After c (List Outline)}
    (h : c.parameterList = .ok r) : c.Crosses r.rest r.value := by
  rw [parameterList] at h
  obtain ⟨⟨first, c₁, h₁⟩, hfirst, h⟩ := bind_eq_ok.mp h
  have hfirst := crosses_parameter hfirst
  dsimp only at h
  split at h
  · next _ c₂ h₂ hcomma =>
    obtain ⟨⟨others, c₃, h₃⟩, hothers, h⟩ := bind_eq_ok.mp h
    obtain rfl := Except.ok.inj h
    simpa using (hfirst.trans (crosses_accept? hcomma)).trans (crosses_parameterList hothers)
  · obtain rfl := Except.ok.inj h
    exact hfirst
termination_by c.remaining

/-- A list of parameters is drawn from its parenthesis, in front of all that is in it. -/
theorem crosses_parameters {r : After c Outline} (h : c.parameters = .ok r) :
    c.Crosses r.rest [r.value] := by
  rw [parameters] at h
  obtain ⟨⟨opening, c₁, h₁⟩, hopen, h⟩ := bind_eq_ok.mp h
  obtain ⟨⟨ps, c₂, h₂⟩, hps, h⟩ := ite_bind_eq_ok.mp h
  obtain ⟨⟨_, c₃, h₃⟩, hclose, h⟩ := bind_eq_ok.mp h
  obtain rfl := Except.ok.inj h
  have hps : c₁.Crosses c₂ ps := by
    split at hps
    · obtain ⟨rfl, rfl⟩ := From.mk.inj (Except.ok.inj hps)
      exact crosses_stay c₁
    · obtain ⟨list, hlist, heq⟩ := map_eq_ok.mp hps
      obtain ⟨rfl, rfl⟩ := From.mk.inj heq
      exact crosses_parameterList hlist
  exact .marked (takes_expect hopen) rfl (hps.on (crosses_expect hclose))

/-- The parameter of a handler is drawn from its name. -/
theorem crosses_catchParameter {r : After c Outline} (h : c.catchParameter = .ok r) :
    c.Crosses r.rest [r.value] := by
  rw [catchParameter] at h
  obtain ⟨⟨_, c₁, h₁⟩, hopen, h⟩ := bind_eq_ok.mp h
  obtain ⟨⟨ms, c₂, h₂⟩, hms, h⟩ := bind_eq_ok.mp h
  obtain ⟨⟨type, c₃, h₃⟩, htype, h⟩ := bind_eq_ok.mp h
  obtain ⟨⟨_, c₄, h₄⟩, halternatives, h⟩ := bind_eq_ok.mp h
  obtain ⟨⟨⟨name, span⟩, c₅, h₅⟩, hname, h⟩ := bind_eq_ok.mp h
  obtain ⟨⟨_, c₆, h₆⟩, hclose, h⟩ := bind_eq_ok.mp h
  obtain rfl := Except.ok.inj h
  have htype := ((crosses_expect hopen).trans (crosses_modifiers hms)).trans (crosses_typeRef htype)
  exact (htype.trans (crosses_catchAlternatives halternatives)).trans
    (.named (takes_name hname) rfl (crosses_expect hclose))

/-! ## Bodies, blocks and expressions -/

/-- What is read at cursors with fewer than `n` tokens left is drawn from the tokens passed. -/
structure CrossesBelow (n : Nat) : Prop where
  typeBody : ∀ {c : Cursor} {r : After c Outline}, c.remaining < n → c.typeBody = .ok r →
    c.Crosses r.rest [r.value]
  typeDeclaration : ∀ {c : Cursor} {ms : List Modifier} {r : After c Outline}, c.remaining < n →
    c.typeDeclaration ms = .ok r → c.Crosses r.rest [r.value]
  statement : ∀ {c : Cursor} {r : After c (List Outline)}, c.remaining < n →
    c.statement = .ok r → c.Crosses r.rest r.value
  expression : ∀ {c : Cursor} {terminators : List Token} {depth : Nat}
    {r : From c (List Outline)}, c.remaining < n → c.expression terminators depth = .ok r →
    c.Crosses r.rest r.value

/-- A node in braces that has no name of its own. -/
theorem crosses_braces {opening closing : Mark} {kind : NodeKind}
    {inner : (c : Cursor) → Except SyntaxError (From c (List Outline))} {r : After c Outline}
    (hkind : kind.name? = none) (h : braces opening closing kind inner c = .ok r)
    (hinner : ∀ {c₁ : Cursor} {r₁ : From c₁ (List Outline)}, c₁.Behind c → inner c₁ = .ok r₁ →
      c₁.Crosses r₁.rest r₁.value) : c.Crosses r.rest [r.value] := by
  obtain ⟨⟨s, c₁, h₁⟩, hopen, h⟩ := bind_eq_ok.mp h
  obtain ⟨⟨children, c₂, h₂⟩, hchildren, h⟩ := bind_eq_ok.mp h
  obtain ⟨⟨_, c₃, h₃⟩, hclose, h⟩ := bind_eq_ok.mp h
  obtain rfl := Except.ok.inj h
  exact .marked (takes_expect hopen) hkind ((hinner h₁ hchildren).on (crosses_expect hclose))

/-- Such a node begins with its bracket. -/
theorem exists_value_of_braces {opening closing : Mark} {kind : NodeKind}
    {inner : (c : Cursor) → Except SyntaxError (From c (List Outline))} {r : After c Outline}
    (h : braces opening closing kind inner c = .ok r) :
    ∃ children, r.value = .node kind c.span children := by
  obtain ⟨⟨s, c₁, h₁⟩, hopen, h⟩ := bind_eq_ok.mp h
  obtain ⟨⟨children, c₂, h₂⟩, -, h⟩ := bind_eq_ok.mp h
  obtain ⟨⟨_, c₃, h₃⟩, -, h⟩ := bind_eq_ok.mp h
  obtain rfl := Except.ok.inj h
  exact ⟨children, by rw [(takes_expect hopen).span_eq]⟩

section

variable {n : Nat} (ih : CrossesBelow n)
include ih

/-- What is in arguments is drawn between the parentheses. -/
theorem crosses_arguments {r : After c (List Outline)} (hc : c.remaining ≤ n)
    (h : c.arguments = .ok r) : c.Crosses r.rest r.value := by
  rw [arguments] at h
  obtain ⟨⟨_, c₁, h₁⟩, hopen, h⟩ := bind_eq_ok.mp h
  obtain ⟨⟨classes, c₂, h₂⟩, hclasses, h⟩ := bind_eq_ok.mp h
  obtain ⟨⟨_, c₃, h₃⟩, hclose, h⟩ := bind_eq_ok.mp h
  obtain rfl := Except.ok.inj h
  have hclasses := ih.expression (by omega) hclasses
  simpa using ((crosses_expect hopen).trans hclasses).trans (crosses_expect hclose)

/-- The classes in the arguments of a creation are drawn in front of the class that is created,
whose node begins at the brace behind them. -/
theorem crosses_creation {r : After c (List Outline)} (hc : c.remaining ≤ n)
    (h : c.creation = .ok r) : c.Crosses r.rest r.value := by
  rw [creation] at h
  obtain ⟨⟨_, c₁, h₁⟩, hnew, h⟩ := bind_eq_ok.mp h
  obtain ⟨⟨_, c₂, h₂⟩, htypes, h⟩ := bind_eq_ok.mp h
  obtain ⟨⟨type, c₃, h₃⟩, htype, h⟩ := bind_eq_ok.mp h
  have hhead := ((crosses_expect hnew).trans (crosses_typeArguments? htypes)).trans
    (crosses_typeRef htype)
  dsimp only at h
  split at h
  · obtain ⟨⟨arguments, c₄, h₄⟩, harguments, h⟩ := bind_eq_ok.mp h
    have harguments := crosses_arguments ih (by omega) harguments
    dsimp only at h
    split at h
    · -- the anonymous class stands around what its body crosses and is named by nothing
      obtain ⟨⟨body, c₅, h₅⟩, hbody, h⟩ := bind_eq_ok.mp h
      obtain rfl := Except.ok.inj h
      have hclass := ih.typeBody (by omega) hbody
      rw [typeBody_eq] at hbody
      obtain ⟨members, rfl⟩ := exists_value_of_braces hbody
      exact (hhead.trans harguments).trans (hclass.around rfl)
    · obtain rfl := Except.ok.inj h
      simpa using hhead.trans harguments
  · obtain rfl := Except.ok.inj h
    simpa using hhead

/-- The classes in an expression are drawn from left to right. -/
theorem crosses_expression {terminators : List Token} {depth : Nat}
    {r : From c (List Outline)} (hc : c.remaining ≤ n)
    (h : c.expression terminators depth = .ok r) : c.Crosses r.rest r.value := by
  rw [expression] at h
  split at h
  · cases h
  · next t _ c₁ h₁ hview =>
    split at h
    · obtain rfl := Except.ok.inj h
      exact crosses_stay c
    · split at h
      · obtain ⟨⟨first, c₂, h₂⟩, hfirst, h⟩ := bind_eq_ok.mp h
        obtain ⟨⟨others, c₃, h₃⟩, hothers, h⟩ := bind_eq_ok.mp h
        obtain rfl := Except.ok.inj h
        have hothers := ih.expression (by omega) hothers
        simpa using (crosses_creation ih (by omega) hfirst).trans hothers
      · obtain ⟨⟨classes, c₂, h₂⟩, hclasses, h⟩ := bind_eq_ok.mp h
        obtain rfl := Except.ok.inj h
        have hclasses := ih.expression (by omega) hclasses
        simpa using (Crosses.of_view hview).trans hclasses

/-- The classes in an initializer are drawn behind the equals sign, and so behind the name of the
variable. -/
theorem crosses_initializer {r : From c (List Outline)} (hc : c.remaining ≤ n)
    (h : c.initializer = .ok r) : c.Crosses r.rest r.value := by
  unfold initializer at h
  split at h
  · next hequal =>
    obtain ⟨⟨classes, c₂, h₂⟩, hclasses, h⟩ := bind_eq_ok.mp h
    obtain rfl := Except.ok.inj h
    have hclasses := ih.expression (by omega) hclasses
    simpa using (crosses_accept? hequal).trans hclasses
  · obtain rfl := Except.ok.inj h
    exact crosses_stay c

/-- The name of the first declarator stands in front of the cursor. -/
theorem crosses_declarators {b c : Cursor} {ms : List Modifier} {type : TypeRef} {name : String}
    {span : Span} {r : From c (List Outline)} (hc : c.remaining ≤ n)
    (hname : b.Takes c ⟨.identifier name, span⟩)
    (h : c.declarators ms type name span = .ok r) : b.Crosses r.rest r.value := by
  rw [declarators_eq] at h
  have hdimensions := c.crosses_dimensions type
  generalize c.dimensions type = dimensions at h hdimensions
  obtain ⟨type', c₁, h₁⟩ := dimensions
  obtain ⟨⟨classes, c₂, h₂⟩, hclasses, h⟩ := bind_eq_ok.mp h
  have hclasses := crosses_initializer ih (by omega) hclasses
  -- the variable is named by the token in front of what the initializer crosses
  have hdeclared : b.Crosses c₂ [.node (.variableDef name ms type') span classes] :=
    .named hname rfl (hdimensions.trans hclasses)
  dsimp only at h
  split at h
  · -- behind a comma the next name is taken, which is smaller, so the induction applies
    next c₃ h₃ hcomma =>
    obtain ⟨⟨⟨name', span'⟩, c₄, h₄⟩, hname', h⟩ := bind_eq_ok.mp h
    obtain ⟨⟨others, c₅, h₅⟩, hothers, h⟩ := bind_eq_ok.mp h
    obtain rfl := Except.ok.inj h
    have hc₄ : c₄.remaining ≤ n := by omega
    have hothers := crosses_declarators hc₄ (takes_name hname') hothers
    exact hdeclared.trans ((crosses_accept? hcomma).trans hothers)
  · obtain rfl := Except.ok.inj h
    exact hdeclared
termination_by c.remaining

/-- Statements are drawn from left to right. -/
theorem crosses_statements {c : Cursor} {r : From c (List Outline)} (hc : c.remaining < n)
    (h : c.statements = .ok r) : c.Crosses r.rest r.value :=
  crosses_row readsRow_statements ih.statement hc h

/-- A block is drawn from its brace, in front of all that is in it. -/
theorem crosses_block {r : After c Outline} (hc : c.remaining ≤ n) (h : c.block = .ok r) :
    c.Crosses r.rest [r.value] := by
  rw [block_eq] at h
  exact crosses_braces rfl h fun hbehind hparts => crosses_statements ih (by omega) hparts

/-- Variables are drawn from left to right, each in front of the classes in its initializer. -/
theorem crosses_localOrExpression {r : After c (List Outline)} (hc : c.remaining ≤ n)
    (h : c.localOrExpression = .ok r) : c.Crosses r.rest r.value := by
  rw [localOrExpression] at h
  split at h
  · next c₁ h₁ hhead =>
    obtain ⟨⟨⟨name, span⟩, c₂, h₂⟩, hname, h⟩ := bind_eq_ok.mp h
    obtain ⟨⟨declared, c₃, h₃⟩, hdeclared, h⟩ := bind_eq_ok.mp h
    obtain ⟨⟨_, c₄, h₄⟩, hend, h⟩ := bind_eq_ok.mp h
    obtain rfl := Except.ok.inj h
    have hc₂ : c₂.remaining ≤ n := by omega
    have hdeclared := crosses_declarators ih hc₂ (takes_name hname) hdeclared
    simpa using ((crosses_declarationHead? hhead).trans hdeclared).trans (crosses_expect hend)
  · obtain ⟨_, -, h⟩ := bind_eq_ok.mp h
    obtain ⟨⟨classes, c₁, h₁⟩, hclasses, h⟩ := bind_eq_ok.mp h
    obtain ⟨⟨_, c₂, h₂⟩, hend, h⟩ := bind_eq_ok.mp h
    obtain rfl := Except.ok.inj h
    simpa using (crosses_expression ih (by omega) hclasses).trans (crosses_expect hend)

/-- A label is drawn in front of its colon; what is no label is drawn as a statement. -/
theorem crosses_caseGroup {c : Cursor} {r : After c (List Outline)} (hc : c.remaining < n)
    (h : c.caseGroup = .ok r) : c.Crosses r.rest r.value := by
  rw [caseGroup] at h
  split at h
  · next c₁ h₁ hview =>
    obtain ⟨⟨classes, c₂, h₂⟩, hclasses, h⟩ := bind_eq_ok.mp h
    obtain ⟨⟨_, c₃, h₃⟩, hcolon, h⟩ := bind_eq_ok.mp h
    obtain rfl := Except.ok.inj h
    have hclasses := (Crosses.of_view hview).trans (crosses_expression ih (by omega) hclasses)
    simpa using hclasses.trans (crosses_expect hcolon)
  · next c₁ h₁ hview =>
    split at h
    · next c₂ h₂ hcolon =>
      obtain rfl := Except.ok.inj h
      exact (Crosses.of_view hview).trans (crosses_accept? hcolon)
    · exact ih.statement hc h
  · exact ih.statement hc h

/-- The groups of a `switch` are drawn from left to right. -/
theorem crosses_caseGroups {c : Cursor} {r : From c (List Outline)} (hc : c.remaining < n)
    (h : c.caseGroups = .ok r) : c.Crosses r.rest r.value :=
  crosses_row readsRow_caseGroups (crosses_caseGroup ih) hc h

/-- The block of a `switch` is drawn from its brace. -/
theorem crosses_switchBody {r : After c Outline} (hc : c.remaining ≤ n)
    (h : c.switchBody = .ok r) : c.Crosses r.rest [r.value] := by
  rw [switchBody_eq] at h
  exact crosses_braces rfl h fun hbehind hgroups => crosses_caseGroups ih (by omega) hgroups

/-- The parenthesis that a loop begins with stands in front of the cursor. -/
theorem crosses_forInitializer {t : Token} {opening : Span} {r : From c (List Outline)}
    (hc : c.remaining ≤ n) (hopen : b.Takes c ⟨t, opening⟩)
    (h : c.forInitializer opening = .ok r) : b.Crosses r.rest r.value := by
  rw [forInitializer] at h
  split at h
  · next ms type c₁ h₁ hhead =>
    obtain ⟨⟨⟨name, span⟩, c₂, h₂⟩, hname, h⟩ := bind_eq_ok.mp h
    obtain ⟨⟨declared, c₃, h₃⟩, hdeclared, h⟩ := bind_eq_ok.mp h
    obtain rfl := Except.ok.inj h
    have hc₂ : c₂.remaining ≤ n := by omega
    have hdeclared := crosses_declarators ih hc₂ (takes_name hname) hdeclared
    exact .marked hopen rfl ((crosses_declarationHead? hhead).trans hdeclared)
  · exact hopen.crosses.trans (crosses_expression ih (by omega) h)

/-- The clause of a `for` statement is drawn from the parenthesis in front of it. That token was
read before the clauses were, so the way begins in front of it. -/
theorem crosses_forClauses {t : Token} {opening : Span} {r : After c (List Outline)}
    (hc : c.remaining ≤ n) (hopen : b.Takes c ⟨t, opening⟩)
    (h : c.forClauses opening = .ok r) : b.Crosses r.rest r.value := by
  rw [forClauses] at h
  split at h
  · next ms type c₁ h₁ hhead =>
    obtain ⟨⟨⟨name, span⟩, c₂, h₂⟩, hname, h⟩ := bind_eq_ok.mp h
    obtain ⟨⟨_, c₃, h₃⟩, hcolon, h⟩ := bind_eq_ok.mp h
    obtain ⟨⟨classes, c₄, h₄⟩, hclasses, h⟩ := bind_eq_ok.mp h
    obtain rfl := Except.ok.inj h
    have hclasses := crosses_expression ih (by omega) hclasses
    have hdeclared : c₁.Crosses c₃ [.leaf (.variableDef name ms type) span] :=
      .named (takes_name hname) rfl (crosses_expect hcolon)
    have hclause := (crosses_declarationHead? hhead).trans (hdeclared.trans hclasses)
    -- the clause has the stretch of the parenthesis in front of it, so it is drawn from there
    exact .marked hopen rfl hclause
  · obtain ⟨⟨initializer, c₁, h₁⟩, hinitializer, h⟩ := bind_eq_ok.mp h
    obtain ⟨⟨_, c₂, h₂⟩, hinitEnd, h⟩ := bind_eq_ok.mp h
    obtain ⟨⟨condition, c₃, h₃⟩, hcondition, h⟩ := bind_eq_ok.mp h
    obtain ⟨⟨_, c₄, h₄⟩, hconditionEnd, h⟩ := bind_eq_ok.mp h
    obtain ⟨⟨update, c₅, h₅⟩, hupdate, h⟩ := bind_eq_ok.mp h
    obtain rfl := Except.ok.inj h
    have hinitializer := crosses_forInitializer ih (by omega) hopen hinitializer
    have hcondition := crosses_expression ih (by omega) hcondition
    have hcondition := (crosses_expect hinitEnd).trans hcondition
    have hupdate := crosses_expression ih (by omega) hupdate
    have hupdate := (crosses_expect hconditionEnd).trans hupdate
    exact (hinitializer.trans hcondition).trans hupdate

/-- The clauses of a `for` statement are drawn in front of its body. -/
theorem crosses_forRest {r : After c (List Outline)} (hc : c.remaining ≤ n)
    (h : c.forRest = .ok r) : c.Crosses r.rest r.value := by
  rw [forRest] at h
  obtain ⟨⟨opening, c₁, h₁⟩, hopen, h⟩ := bind_eq_ok.mp h
  obtain ⟨⟨clauses, c₂, h₂⟩, hclauses, h⟩ := bind_eq_ok.mp h
  obtain ⟨⟨_, c₃, h₃⟩, hclose, h⟩ := bind_eq_ok.mp h
  obtain ⟨⟨body, c₄, h₄⟩, hbody, h⟩ := bind_eq_ok.mp h
  obtain rfl := Except.ok.inj h
  have hc₁ : c₁.remaining ≤ n := by omega
  have hclauses := crosses_forClauses ih hc₁ (takes_expect hopen) hclauses
  have hbody := ih.statement (by omega) hbody
  have hbody := (crosses_expect hclose).trans hbody
  simpa using hclauses.trans hbody

/-- A clause is drawn from its keyword, in front of its parameter and its block. -/
theorem crosses_catches {c : Cursor} {r : From c (List Outline)} (hc : c.remaining ≤ n)
    (h : c.catches = .ok r) : c.Crosses r.rest r.value := by
  rw [catches] at h
  split at h
  · obtain rfl := Except.ok.inj h
    exact crosses_stay c
  · next clause c₁ h₁ hcatch =>
    obtain ⟨⟨parameter, c₂, h₂⟩, hparameter, h⟩ := bind_eq_ok.mp h
    obtain ⟨⟨body, c₃, h₃⟩, hbody, h⟩ := bind_eq_ok.mp h
    obtain ⟨⟨others, c₄, h₄⟩, hothers, h⟩ := bind_eq_ok.mp h
    obtain rfl := Except.ok.inj h
    have hbody := crosses_block ih (by omega) hbody
    have hclause : c.Crosses c₃ [.node .catchClause clause [parameter, body]] :=
      .marked (takes_accept? hcatch) rfl ((crosses_catchParameter hparameter).trans hbody)
    exact hclause.trans (crosses_catches (by omega) hothers)
termination_by c.remaining

/-- Arguments that may be missing are drawn if they are there. -/
theorem crosses_optionalArguments {r : From c (List Outline)} (hc : c.remaining ≤ n)
    (h : c.optionalArguments = .ok r) : c.Crosses r.rest r.value := by
  unfold optionalArguments at h
  split at h
  · obtain ⟨arguments, harguments, rfl⟩ := map_eq_ok.mp h
    exact crosses_arguments ih hc harguments
  · obtain rfl := Except.ok.inj h
    exact crosses_stay c

/-- What a `try` statement holds is drawn from left to right. -/
theorem crosses_tryRest {r : After c (List Outline)} (hc : c.remaining ≤ n)
    (h : c.tryRest = .ok r) : c.Crosses r.rest r.value := by
  rw [tryRest_eq] at h
  obtain ⟨⟨resources, c₁, h₁⟩, hresources, h⟩ := bind_eq_ok.mp h
  obtain ⟨⟨body, c₂, h₂⟩, hbody, h⟩ := bind_eq_ok.mp h
  obtain ⟨⟨handlers, c₃, h₃⟩, hhandlers, h⟩ := bind_eq_ok.mp h
  have hresources := crosses_optionalArguments ih hc hresources
  have hbody := crosses_block ih (by omega) hbody
  have hhandlers := crosses_catches ih (by omega) hhandlers
  dsimp only at h
  split at h
  · next c₄ h₄ hfinally =>
    obtain ⟨⟨last, c₅, h₅⟩, hlast, h⟩ := bind_eq_ok.mp h
    obtain rfl := Except.ok.inj h
    have hlast := crosses_block ih (by omega) hlast
    have hlast := (crosses_accept? hfinally).trans hlast
    simpa using ((hresources.trans hbody).trans hhandlers).trans hlast
  · obtain rfl := Except.ok.inj h
    simpa using (hresources.trans hbody).trans hhandlers

/-- A body that may be missing is drawn if it is there. -/
theorem crosses_optionalBody {r : From c (List Outline)} (hc : c.remaining < n)
    (h : c.optionalBody = .ok r) : c.Crosses r.rest r.value := by
  unfold optionalBody at h
  split at h
  · obtain ⟨⟨body, c₁, h₁⟩, hbody, h⟩ := bind_eq_ok.mp h
    obtain rfl := Except.ok.inj h
    have hbody := ih.typeBody hc hbody
    simpa using hbody
  · obtain rfl := Except.ok.inj h
    exact crosses_stay c

/-- A constant is drawn from its name, in front of its arguments and its body. -/
theorem crosses_enumConstant {r : After c Outline} (hc : c.remaining ≤ n)
    (h : c.enumConstant = .ok r) : c.Crosses r.rest [r.value] := by
  rw [enumConstant_eq] at h
  obtain ⟨⟨_, c₁, h₁⟩, hms, h⟩ := bind_eq_ok.mp h
  obtain ⟨⟨⟨name, span⟩, c₂, h₂⟩, hname, h⟩ := bind_eq_ok.mp h
  obtain ⟨⟨arguments, c₃, h₃⟩, harguments, h⟩ := bind_eq_ok.mp h
  obtain ⟨⟨body, c₄, h₄⟩, hbody, h⟩ := bind_eq_ok.mp h
  obtain rfl := Except.ok.inj h
  have harguments := crosses_optionalArguments ih (by omega) harguments
  have hbody := crosses_optionalBody ih (by omega) hbody
  exact (crosses_modifiers hms).trans (.named (takes_name hname) rfl (harguments.trans hbody))

/-- What is below a method is drawn behind its header. -/
theorem crosses_methodBody {r : After c (List Outline)} (hc : c.remaining ≤ n)
    (h : c.methodBody = .ok r) : c.Crosses r.rest r.value := by
  rw [methodBody] at h
  obtain ⟨⟨_, c₁, h₁⟩, hclauses, h⟩ := bind_eq_ok.mp h
  have hclauses := crosses_methodClauses hclauses
  dsimp only at h
  split at h
  · next hview =>
    obtain rfl := Except.ok.inj h
    simpa using hclauses.trans (.of_view hview)
  · next c₂ h₂ hview =>
    obtain ⟨⟨classes, c₃, h₃⟩, hclasses, h⟩ := bind_eq_ok.mp h
    obtain ⟨⟨_, c₄, h₄⟩, hend, h⟩ := bind_eq_ok.mp h
    obtain rfl := Except.ok.inj h
    have hclasses := crosses_expression ih (by omega) hclasses
    have hclasses := (Crosses.of_view hview).trans hclasses
    simpa using (hclauses.trans hclasses).trans (crosses_expect hend)
  · obtain ⟨⟨body, c₂, h₂⟩, hbody, h⟩ := bind_eq_ok.mp h
    obtain rfl := Except.ok.inj h
    have hbody := crosses_block ih (by omega) hbody
    simpa using hclauses.trans hbody

/-- A method is drawn from its name, in front of its parameters and its body; fields are drawn from
their names. -/
theorem crosses_methodOrFields {ms : List Modifier} {r : After c (List Outline)}
    (hc : c.remaining ≤ n) (h : c.methodOrFields ms = .ok r) :
    c.Crosses r.rest r.value := by
  rw [methodOrFields] at h
  obtain ⟨⟨type, c₁, h₁⟩, htype, h⟩ := bind_eq_ok.mp h
  obtain ⟨⟨⟨name, span⟩, c₂, h₂⟩, hname, h⟩ := bind_eq_ok.mp h
  have htype := crosses_typeRef htype
  dsimp only at h
  split at h
  · obtain ⟨⟨ps, c₃, h₃⟩, hps, h⟩ := bind_eq_ok.mp h
    obtain ⟨⟨body, c₄, h₄⟩, hbody, h⟩ := bind_eq_ok.mp h
    obtain rfl := Except.ok.inj h
    have hc₃ : c₃.remaining ≤ n := by omega
    have hbody := crosses_methodBody ih hc₃ hbody
    exact htype.trans (.named (takes_name hname) rfl ((crosses_parameters hps).trans hbody))
  · obtain ⟨⟨fields, c₃, h₃⟩, hfields, h⟩ := bind_eq_ok.mp h
    obtain ⟨⟨_, c₄, h₄⟩, hend, h⟩ := bind_eq_ok.mp h
    obtain rfl := Except.ok.inj h
    have hc₂ : c₂.remaining ≤ n := by omega
    have hfields := crosses_declarators ih hc₂ (takes_name hname) hfields
    simpa using (htype.trans hfields).trans (crosses_expect hend)

/-- A constructor is drawn from its name, in front of its parameters and its block. -/
theorem crosses_constructor {ms : List Modifier} {r : After c Outline}
    (hc : c.remaining ≤ n) (h : c.constructor ms = .ok r) : c.Crosses r.rest [r.value] := by
  rw [constructor] at h
  obtain ⟨⟨⟨name, span⟩, c₁, h₁⟩, hname, h⟩ := bind_eq_ok.mp h
  obtain ⟨⟨ps, c₂, h₂⟩, hps, h⟩ := bind_eq_ok.mp h
  obtain ⟨⟨_, c₃, h₃⟩, hheader, h⟩ := bind_eq_ok.mp h
  obtain ⟨⟨body, c₄, h₄⟩, hbody, h⟩ := bind_eq_ok.mp h
  obtain rfl := Except.ok.inj h
  have hbody := crosses_block ih (by omega) hbody
  have hbody := (crosses_header hheader).trans hbody
  exact .named (takes_name hname) rfl ((crosses_parameters hps).trans hbody)

/-- Modifiers and type arguments of a member leave no node, so the first node is that of the member
itself. -/
theorem crosses_memberDeclaration {r : After c (List Outline)} (hc : c.remaining < n)
    (h : c.memberDeclaration = .ok r) : c.Crosses r.rest r.value := by
  rw [memberDeclaration] at h
  obtain ⟨⟨ms, c₁, h₁⟩, hms, h⟩ := bind_eq_ok.mp h
  have hms := crosses_modifiers hms
  dsimp only at h
  split at h
  · obtain ⟨⟨type, c₂, h₂⟩, htype, h⟩ := bind_eq_ok.mp h
    obtain rfl := Except.ok.inj h
    have htype := ih.typeDeclaration (by omega) htype
    simpa using hms.trans htype
  · obtain ⟨⟨_, c₂, h₂⟩, htypes, h⟩ := bind_eq_ok.mp h
    have hhead := hms.trans (crosses_typeArguments? htypes)
    dsimp only at h
    split at h
    · obtain ⟨⟨declared, c₃, h₃⟩, hdeclared, h⟩ := bind_eq_ok.mp h
      obtain rfl := Except.ok.inj h
      have hdeclared := crosses_constructor ih (by omega) hdeclared
      simpa using hhead.trans hdeclared
    · obtain ⟨⟨declared, c₃, h₃⟩, hdeclared, h⟩ := bind_eq_ok.mp h
      obtain rfl := Except.ok.inj h
      have hdeclared := crosses_methodOrFields ih (by omega) hdeclared
      simpa using hhead.trans hdeclared

/-- A static initializer is drawn from `static`, another initializer from its brace. The block of
the second begins at the same token and has no name. -/
theorem crosses_member {r : After c (List Outline)} (hc : c.remaining < n)
    (h : c.member = .ok r) : c.Crosses r.rest r.value := by
  rw [member] at h
  split at h
  · next hview =>
    obtain rfl := Except.ok.inj h
    simpa using Crosses.of_view hview
  · next hview =>
    obtain ⟨⟨body, c₁, h₁⟩, hbody, h⟩ := bind_eq_ok.mp h
    obtain rfl := Except.ok.inj h
    have hblock := crosses_block ih (by omega) hbody
    rw [block_eq] at hbody
    obtain ⟨statements, rfl⟩ := exists_value_of_braces hbody
    -- an initializer block spans its own brace
    rw [(takes_view hview).span_eq] at hblock ⊢
    exact hblock.around rfl
  · next c₁ h₁ hview =>
    split at h
    · obtain ⟨⟨body, c₂, h₂⟩, hbody, h⟩ := bind_eq_ok.mp h
      obtain rfl := Except.ok.inj h
      exact .marked (takes_view hview) rfl (crosses_block ih (by omega) hbody)
    · exact crosses_memberDeclaration ih (by omega) h
  · exact crosses_memberDeclaration ih (by omega) h

/-- Members are drawn from left to right. -/
theorem crosses_members {c : Cursor} {r : From c (List Outline)} (hc : c.remaining < n)
    (h : c.members = .ok r) : c.Crosses r.rest r.value :=
  crosses_row readsRow_members (crosses_member ih) hc h

/-- Constants and members of an enum are drawn from left to right. -/
theorem crosses_enumConstants {c : Cursor} {r : From c (List Outline)} (hc : c.remaining < n)
    (h : c.enumConstants = .ok r) : c.Crosses r.rest r.value := by
  rw [enumConstants] at h
  split at h
  · -- behind the semicolon come members, and the constants are over
    next c₁ h₁ hview =>
    obtain ⟨⟨members, c₂, h₂⟩, hmembers, h⟩ := bind_eq_ok.mp h
    obtain rfl := Except.ok.inj h
    have hmembers := crosses_members ih (by omega) hmembers
    simpa using (Crosses.of_view hview).trans hmembers
  · obtain rfl := Except.ok.inj h
    exact crosses_stay c
  · next c₁ h₁ hview =>
    obtain ⟨⟨others, c₂, h₂⟩, hothers, h⟩ := bind_eq_ok.mp h
    obtain rfl := Except.ok.inj h
    have hothers := crosses_enumConstants (by omega) hothers
    simpa using (Crosses.of_view hview).trans hothers
  · obtain ⟨⟨constant, c₁, h₁⟩, hconstant, h⟩ := bind_eq_ok.mp h
    obtain ⟨⟨others, c₂, h₂⟩, hothers, h⟩ := bind_eq_ok.mp h
    obtain rfl := Except.ok.inj h
    have hconstant := crosses_enumConstant ih (by omega) hconstant
    have hothers := crosses_enumConstants (by omega) hothers
    simpa using hconstant.trans hothers
termination_by c.remaining

/-- The body of a type is drawn from its brace, in front of the members. -/
theorem crosses_typeBody {r : After c Outline} (hc : c.remaining ≤ n) (h : c.typeBody = .ok r) :
    c.Crosses r.rest [r.value] := by
  rw [typeBody_eq] at h
  exact crosses_braces rfl h fun hbehind hmembers => crosses_members ih (by omega) hmembers

/-- The body of an enum is drawn from its brace, in front of the constants. -/
theorem crosses_enumBody {r : After c Outline} (hc : c.remaining ≤ n) (h : c.enumBody = .ok r) :
    c.Crosses r.rest [r.value] := by
  rw [enumBody_eq] at h
  exact crosses_braces rfl h fun hbehind hmembers => crosses_enumConstants ih (by omega) hmembers

/-- A type is drawn from its heading, which begins at the word for a type and ends with the name.
Modifiers in front of it leave no node. -/
theorem crosses_typeDeclaration {ms : List Modifier} {r : After c Outline}
    (hc : c.remaining ≤ n) (h : c.typeDeclaration ms = .ok r) :
    c.Crosses r.rest [r.value] := by
  rw [typeDeclaration] at h
  obtain ⟨⟨⟨kind, span⟩, c₁, h₁⟩, hheading, h⟩ := bind_eq_ok.mp h
  dsimp only at h
  split at h
  all_goals
    obtain ⟨⟨body, c₂, h₂⟩, hbody, h⟩ := bind_eq_ok.mp h
    obtain rfl := Except.ok.inj h
  · exact .headed hheading (crosses_enumBody ih (by omega) hbody)
  · exact .headed hheading (crosses_typeBody ih (by omega) hbody)

/-- A local type is drawn as a type is, anything else as a statement. -/
theorem crosses_localClass {r : After c (List Outline)} (hc : c.remaining ≤ n)
    (h : c.localClass = .ok r) : c.Crosses r.rest r.value := by
  obtain ⟨⟨ms, c₁, h₁⟩, hms, h⟩ := bind_eq_ok.mp h
  dsimp only at h
  split at h
  · obtain ⟨⟨type, c₂, h₂⟩, htype, h⟩ := bind_eq_ok.mp h
    obtain rfl := Except.ok.inj h
    have htype := crosses_typeDeclaration ih (by omega) htype
    simpa using (crosses_modifiers hms).trans htype
  · exact crosses_localOrExpression ih hc h

/-- Each step of a statement passes the tokens that its nodes are drawn from. -/
theorem crosses_statementStep {r : From c (List Outline)} {step : StatementStep}
    (hc : c.remaining < n) (h : step.read c = .ok r) : c.Crosses r.rest r.value := by
  have hle : c.remaining ≤ n := Nat.le_of_lt hc
  -- one case for each step; what a step crosses is what its reader crosses
  cases step with
  | skip =>
    obtain rfl := Except.ok.inj h
    exact .of_placeIn (PlaceIn.refl c).skip
  | mark m =>
    obtain ⟨r, hmark, h⟩ := bind_eq_ok.mp h
    obtain rfl := Except.ok.inj h
    exact crosses_expect hmark
  | otherwise =>
    rw [StatementStep.read] at h
    split at h
    · next r₁ helse =>
      obtain ⟨r₂, hno, h⟩ := bind_eq_ok.mp h
      obtain rfl := Except.ok.inj h
      have hno := ih.statement (Nat.lt_trans r₁.behind hc) hno
      simpa using (crosses_accept? helse).trans hno
    · obtain rfl := Except.ok.inj h
      exact crosses_stay c
  | expression => exact crosses_expression ih hle h
  | arguments =>
    obtain ⟨r, hclasses, h⟩ := bind_eq_ok.mp h
    obtain rfl := Except.ok.inj h
    exact crosses_arguments ih hle hclasses
  | statement =>
    obtain ⟨r, hbody, h⟩ := bind_eq_ok.mp h
    obtain rfl := Except.ok.inj h
    exact ih.statement hc hbody
  | block =>
    obtain ⟨r, hbody, h⟩ := bind_eq_ok.mp h
    obtain rfl := Except.ok.inj h
    exact crosses_block ih hle hbody
  | switchBody =>
    obtain ⟨r, hbody, h⟩ := bind_eq_ok.mp h
    obtain rfl := Except.ok.inj h
    exact crosses_switchBody ih hle hbody
  | forRest =>
    obtain ⟨r, hparts, h⟩ := bind_eq_ok.mp h
    obtain rfl := Except.ok.inj h
    exact crosses_forRest ih hle hparts
  | tryRest =>
    obtain ⟨r, hparts, h⟩ := bind_eq_ok.mp h
    obtain rfl := Except.ok.inj h
    exact crosses_tryRest ih hle hparts

omit c in
/-- The steps of a statement draw one behind the other, by induction on the steps. -/
theorem crosses_readAll {c : Cursor} {r : From c (List Outline)} {steps : List StatementStep}
    (hc : c.remaining < n) (h : StatementStep.readAll c steps = .ok r) :
    c.Crosses r.rest r.value := by
  induction steps generalizing c with
  | nil =>
    obtain rfl := Except.ok.inj h
    exact crosses_stay c
  | cons step steps ihSteps =>
    obtain ⟨r₁, hfirst, h⟩ := bind_eq_ok.mp h
    obtain ⟨r₂, hothers, h⟩ := bind_eq_ok.mp h
    obtain rfl := Except.ok.inj h
    have hothers := ihSteps (Nat.lt_of_le_of_lt r₁.notBefore hc) hothers
    exact (crosses_statementStep ih hc hfirst).trans hothers

/-- What a statement leaves is drawn from left to right, in every form of statements. -/
theorem crosses_statement {r : After c (List Outline)} (hc : c.remaining ≤ n)
    (h : c.statement = .ok r) : c.Crosses r.rest r.value := by
  rw [statement_eq] at h
  generalize statementForm c.current c.following = form at h
  cases form with
  | block =>
    obtain ⟨r, hbody, h⟩ := bind_eq_ok.mp h
    obtain rfl := Except.ok.inj h
    exact crosses_block ih hc hbody
  | row steps =>
    rw [StatementForm.read] at h
    split at h
    · cases h
    · next c₁ h₁ hview =>
      obtain ⟨r, hsteps, h⟩ := bind_eq_ok.mp h
      obtain rfl := Except.ok.inj h
      exact (Crosses.of_view hview).trans (crosses_readAll ih (by omega) hsteps)
  | localClass => exact crosses_localClass ih hc h
  | localOrExpression => exact crosses_localOrExpression ih hc h

end

/-- All readers that call each other draw from left to right, by induction on the tokens that are
left. -/
theorem crossesBelow (n : Nat) : CrossesBelow n := by
  induction n with
  | zero => exact ⟨nofun, nofun, nofun, nofun⟩
  | succ n ih =>
    exact
      { typeBody := fun hc h => crosses_typeBody ih (Nat.le_of_lt_succ hc) h
        typeDeclaration := fun hc h => crosses_typeDeclaration ih (Nat.le_of_lt_succ hc) h
        statement := fun hc h => crosses_statement ih (Nat.le_of_lt_succ hc) h
        expression := fun hc h => crosses_expression ih (Nat.le_of_lt_succ hc) h }

/-! ## Compilation units -/

/-- A directive draws nothing, a declaration its type behind the modifiers. -/
theorem crosses_unitEntry {c : Cursor} {r : After c (List Outline)} (h : c.unitEntry = .ok r) :
    c.Crosses r.rest r.value := by
  rw [unitEntry] at h
  split at h
  · next c₁ h₁ hview =>
    obtain rfl := Except.ok.inj h
    exact .of_view hview
  case h_2 | h_3 =>
    obtain ⟨⟨_, c₁, h₁⟩, hdirective, h⟩ := bind_eq_ok.mp h
    obtain rfl := Except.ok.inj h
    exact crosses_directive hdirective
  · rw [withModifiers] at h
    obtain ⟨⟨ms, c₁, h₁⟩, hms, h⟩ := bind_eq_ok.mp h
    have hms := crosses_modifiers hms
    dsimp only at h
    split at h
    · obtain ⟨⟨_, c₂, h₂⟩, hdirective, h⟩ := bind_eq_ok.mp h
      obtain rfl := Except.ok.inj h
      exact hms.trans (crosses_directive hdirective)
    · obtain ⟨⟨type, c₂, h₂⟩, htype, h⟩ := bind_eq_ok.mp h
      obtain rfl := Except.ok.inj h
      -- the readers below this cursor are known already, by the bound on what remains
      exact hms.trans ((crossesBelow _).typeDeclaration (Nat.lt_succ_self _) htype)

/-- The types of a unit are drawn from left to right. -/
theorem crosses_declarations {c : Cursor} {r : From c (List Outline)}
    (h : c.declarations = .ok r) : c.Crosses r.rest r.value := by
  refine declarations_induction (motive := fun c r => c.Crosses r.rest r.value) ?_ ?_ h
  · exact fun c _ => crosses_stay c
  · exact fun _ _ _ _ hfirst hothers => (crosses_unitEntry hfirst).trans hothers

/-- The declarations of a unit are drawn from its tokens. -/
theorem drawn_of_declarations {r : From c (List Outline)} (h : c.declarations = .ok r) :
    Drawn c.pending r.value := by
  obtain ⟨read, hread, hdrawn⟩ := crosses_declarations h
  rw [hread]
  simpa using hdrawn.append (.passed r.rest.pending)

/-- The tokens that a cursor begins with are those that it was given, but for an `eof` at the end.
-/
theorem pending_ofLexemes_sublist (ls : List Lexeme) :
    (ofLexemes ls).pending.Sublist ls := by
  unfold ofLexemes
  split
  · exact List.nil_sublist _
  · split
    · exact List.dropLast_sublist _
    · exact .refl _

end Cursor

end FieldShadow
