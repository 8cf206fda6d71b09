import Mathlib.Data.List.Forall2
import FieldShadow.Proofs.HiddenField.Order

/-!
# Other layouts of the same tokens

What stands between the tokens of a text has no say in what a check finds. If two texts have the
same tokens, at whatever places, then both can be read or none of the two, their trees differ in
places only, and their reports agree one by one and stand on tokens with the same number
(`Analyzer.check_relayout`).

The tokens of a text begin at different places and end at different places, so there is a way to
move spans that takes each token of the one text to its partner in the other (`Span.relaid`). From
there on it is the same unit in other places.
-/

namespace FieldShadow

open Cursor Outline

/-! ## Moving tokens to their partners -/

/-- The entry that has the same index in the second list as a place has in the first. -/
def Position.partner (ps qs : List Position) (p : Position) : Position :=
  qs.getD (ps.idxOf p) p

/-- The partner of the place of a token is the place of the token with the same index, since places
are not repeated. -/
theorem Position.partner_map {f : Lexeme → Position} {ls ls' : List Lexeme}
    (hnodup : (ls.map f).Nodup) {i : Nat} (hi : i < ls.length) (hi' : i < ls'.length) :
    (f ls[i]).partner (ls.map f) (ls'.map f) = f ls'[i] := by
  have hindex := hnodup.idxOf_getElem i (by simpa using hi)
  rw [List.getElem_map] at hindex
  rw [partner, hindex]
  simp [hi']

/-- Moves a span from the tokens where it begins and ends to their partners. -/
def Span.relaid (ls ls' : List Lexeme) (s : Span) : Span where
  start := s.start.partner (ls.map fun l => l.span.start) (ls'.map fun l => l.span.start)
  stop := s.stop.partner (ls.map fun l => l.span.stop) (ls'.map fun l => l.span.stop)

/-- Tokens that follow each other begin and end at different places. -/
theorem nodup_places {source : String} {ls : List Lexeme} (h : tokenize source = .ok ls) :
    (ls.map fun l => l.span.start).Nodup ∧ (ls.map fun l => l.span.stop).Nodup := by
  have hne {p q : Position} (hlt : p < q) : p ≠ q := by
    rintro rfl
    exact Position.not_le_of_lt hlt (Position.le_refl p)
  have hpairwise := pairwise_span h
  constructor
  · exact List.pairwise_map.mpr (hpairwise.imp fun hlt => hne hlt.1)
  · exact List.pairwise_map.mpr (hpairwise.imp fun hlt => hne hlt.2)

/-- The tokens of a text are those of another with the same tokens, moved. -/
theorem map_relaid {source : String} {ls ls' : List Lexeme} (h : tokenize source = .ok ls)
    (htokens : ls.map Lexeme.token = ls'.map Lexeme.token) :
    (ls.map fun l => ⟨l.token, l.span.relaid ls ls'⟩) = ls' := by
  obtain ⟨hstarts, hstops⟩ := nodup_places h
  have hlength : ls.length = ls'.length := by simpa using congrArg List.length htokens
  refine List.ext_getElem (by simpa using hlength) fun i hi hi' => ?_
  have hi : i < ls.length := by simpa using hi
  have htoken : ls[i].token = ls'[i].token := by
    have hget := congrArg (fun ts : List Token => ts[i]?) htokens
    simpa [hi, hi'] using hget
  have hspan : ls[i].span.relaid ls ls' = ls'[i].span :=
    congrArg₂ Span.mk (Position.partner_map hstarts hi hi') (Position.partner_map hstops hi hi')
  rw [List.getElem_map, htoken, hspan]

/-- What can be read from a text can be read from another with the same tokens, in other places. -/
theorem outlines_relaid {source source' : String} {ls ls' : List Lexeme} {os : List Outline}
    (h : tokenize source = .ok ls) (h' : tokenize source' = .ok ls')
    (htokens : ls.map Lexeme.token = ls'.map Lexeme.token)
    (hos : (ofLexemes ls).outlines = .ok os) :
    (ofLexemes ls').outlines = .ok (movedAll (Span.relaid ls ls') os) := by
  have hmap := map_relaid h htokens
  have hmove : ∀ s t : Span, (s.to t).relaid ls ls' = (s.relaid ls ls').to (t.relaid ls ls') :=
    fun _ _ => rfl
  generalize Span.relaid ls ls' = move at hmap hmove ⊢
  obtain ⟨row, s, rfl, heof⟩ := exists_of_tokenize h
  obtain ⟨row', s', rfl, -⟩ := exists_of_tokenize h'
  rw [List.map_append] at hmap
  obtain ⟨rfl, -⟩ := List.append_inj' hmap rfl
  rw [ofLexemes_concat] at hos ⊢
  exact outlines_moved hmove s' hos heof

/-! ## Trees in other places -/

/-- A node but for its place in the text. -/
def Node.unplaced (n : Node) : NodeKind × Option Nat × List Nat :=
  (n.kind, n.parent?, n.children)

namespace SyntaxTree

/-- Trees that differ in the places of their nodes only. -/
def SameButPlaces (t u : SyntaxTree) : Prop :=
  t.nodes.map Node.unplaced = u.nodes.map Node.unplaced

/-- Trees are the same but for places if their nodes are, number by number. -/
theorem sameButPlaces_of_forall {t u : SyntaxTree} (hsize : t.size = u.size)
    (hnode : ∀ id < t.size, t.kind? id = u.kind? id ∧ t.parent? id = u.parent? id ∧
      t.children id = u.children id) : t.SameButPlaces u := by
  refine Array.ext (by simpa [size] using hsize) fun id hid hid' => ?_
  have hid : id < t.nodes.size := by simpa using hid
  have hid' : id < u.nodes.size := by simpa using hid'
  obtain ⟨hkind, hparent, hchildren⟩ := hnode id hid
  simp only [kind?, parent?, children, node?, Array.getElem?_eq_getElem hid,
    Array.getElem?_eq_getElem hid'] at hkind hparent hchildren
  simp only [Array.getElem_map, Node.unplaced, Prod.mk.injEq]
  exact ⟨Option.some.inj hkind, hparent, hchildren⟩

theorem size_ofOutlines_nil : (ofOutlines []).size = 1 := by
  rw [ofOutlines, graftAll]
  rfl

/-- With nothing but a root in front all names stay. -/
theorem nameBehind_one : nameBehind 1 = id := by
  funext id
  rw [nameBehind]
  split
  · next h => exact h.symm
  · exact Nat.zero_add id

/-- Moving the spans of outlines changes nothing else in their tree. -/
theorem sameButPlaces_movedAll (os : List Outline) (move : Span → Span) :
    (ofOutlines os).SameButPlaces (ofOutlines (movedAll move os)) := by
  have happended := appended_ofOutlines [] os move
  have hroot (os : List Outline) : (ofOutlines os).kind? root = some .compilationUnit :=
    (grown_ofOutlines os).linked.kind_root
  have hembeds := happended.embeds_behind (hroot []) (hroot os)
  have hname : nameBehind (ofOutlines []).size = id := by
    rw [size_ofOutlines_nil, nameBehind_one]
  -- behind no outlines no node is renumbered
  rw [hname] at hembeds
  rw [List.nil_append] at happended hembeds
  refine sameButPlaces_of_forall ?_ fun id hid => ?_
  · rw [happended.size, size_ofOutlines_nil, Nat.sub_self, Nat.zero_add]
  · have hparent := hembeds.parent?_eq hid
    rw [Option.map_id] at hparent
    refine ⟨(hembeds.kind?_eq hid).symm, hparent.symm, ?_⟩
    by_cases hid' : id = root
    · rw [hid', happended.children_root, hname, List.map_id]
      rfl
    · have hchildren := hembeds.children_eq hid' hid
      rw [List.map_id] at hchildren
      exact hchildren.symm

/-- The tree of a text is that of the outlines read from its tokens. -/
theorem ofSource_eq_ok {source : String} {ls : List Lexeme} {os : List Outline}
    (h : tokenize source = .ok ls) (hos : (ofLexemes ls).outlines = .ok os) :
    ofSource source = .ok (.ofOutlines os) := by
  obtain ⟨r, hr, rfl⟩ := map_eq_ok.mp hos
  have hparser : Parser.ofScanner (.ofSource source) = .ofLexemes ls := by
    rw [Parser.ofScanner, show (Scanner.ofSource source).tokens = .ok ls from h]
  rw [ofSource, hparser]
  simp [Parser.next, Parser.ofLexemes, hr]

end SyntaxTree

namespace Analyzer

/-! ## Checks of other layouts -/

/-- The findings of moved outlines are the findings, moved. -/
theorem findings_movedAll (config : Config) (os : List Outline) (move : Span → Span) :
    findings config (movedAll move os) = (findings config os).map (Diagnostic.moved move) := by
  unfold findings
  split
  · rfl
  · have hnone : (SyntaxTree.ofOutlines []).shadowings config.hiddenField = [] := by
      have hroot := (SyntaxTree.grown_ofOutlines []).linked.kind_root
      rw [SyntaxTree.shadowings_eq hroot]
      rfl
    have happend := SyntaxTree.shadowings_ofOutlines [] os move config.hiddenField
    rwa [List.nil_append, hnone, List.nil_append] at happend

/-- Reports about texts with the same tokens, on tokens with the same number. -/
structure Agree (ls ls' : List Lexeme) (d d' : Diagnostic) : Prop where
  rule : d.rule = d'.rule
  severity : d.severity = d'.severity
  message : d.message = d'.message
  arguments : d.arguments = d'.arguments
  spans : d.rule = "hidden-field" → ∃ i : Nat, ls[i]?.map Lexeme.span = some d.span ∧
    ls'[i]?.map Lexeme.span = some d'.span

/-- What is kept of the findings about a text stands on tokens of it. -/
theorem agree_moved {ls ls' : List Lexeme} {move : Span → Span} {kept : List Diagnostic}
    (hmap : (ls.map fun l => ⟨l.token, move l.span⟩) = ls')
    (hreports : ∀ d ∈ kept, ∃ name, d.IsReport name)
    (hnames : (kept.filterMap Diagnostic.nameToken?).Sublist ls) :
    ∀ d ∈ kept, Agree ls ls' d (d.moved move) := by
  intro d hd
  refine ⟨rfl, rfl, rfl, rfl, fun _ => ?_⟩
  obtain ⟨name, hname⟩ := hreports d hd
  obtain ⟨i, hi⟩ := List.mem_iff_getElem?.mp (hname.mem_of_sublist hd hnames)
  refine ⟨i, by rw [hi]; rfl, ?_⟩
  rw [← hmap, List.getElem?_map, hi]
  rfl

/-- If one of two texts with the same tokens can be read, the other can, and their reports and
trees agree. -/
theorem agree_of_outlines {config : Config} {source source' : String} {ls ls' : List Lexeme}
    {os : List Outline} (h : tokenize source = .ok ls) (h' : tokenize source' = .ok ls')
    (htokens : ls.map Lexeme.token = ls'.map Lexeme.token)
    (hos : (ofLexemes ls).outlines = .ok os) :
    ∃ found found' t t', ((new config).check source).result = .ok found ∧
      ((new config).check source').result = .ok found' ∧
      List.Forall₂ (Agree ls ls') found found' ∧ SyntaxTree.ofSource source = .ok t ∧
      SyntaxTree.ofSource source' = .ok t' ∧ t.SameButPlaces t' := by
  have hmap := map_relaid h htokens
  have hos' := outlines_relaid h h' htokens hos
  have hread := result_check_of_outlines config h hos
  have hread' := result_check_of_outlines config h' hos'
  -- what is kept are findings at names; the note on the limit has no place in the source
  obtain ⟨kept, note, heq, hkept, -, hnote, hmoved⟩ :=
    config.exists_postProcess (findings config os)
  obtain ⟨hreports, hnames⟩ := filterMap_nameToken?_kept (c := ofLexemes ls) hos hkept
  rw [heq] at hread
  rw [findings_movedAll, hmoved] at hread'
  refine ⟨_, _, _, _, hread, hread', ?_, SyntaxTree.ofSource_eq_ok h hos,
    SyntaxTree.ofSource_eq_ok h' hos', SyntaxTree.sameButPlaces_movedAll os _⟩
  have hnote' : ∀ d ∈ note, Agree ls ls' d d := fun d hd =>
    ⟨rfl, rfl, rfl, rfl, fun hrule => absurd ((hnote d hd).symm.trans hrule) (by decide)⟩
  -- each finding agrees with the moved one, the note with itself
  refine List.rel_append ?_ (List.forall₂_same.mpr hnote')
  rw [List.forall₂_map_right_iff, List.forall₂_same]
  exact agree_moved hmap hreports (hnames.trans (pending_ofLexemes_sublist ls))

/-- Two texts with the same tokens can both not be read, or both can. Then their reports are the
same, one by one and each on tokens with the same number, and their trees differ in places only. -/
theorem check_relayout (config : Config) {source source' : String} {ls ls' : List Lexeme}
    (h : tokenize source = .ok ls) (h' : tokenize source' = .ok ls')
    (htokens : ls.map Lexeme.token = ls'.map Lexeme.token) :
    (∃ e e', ((new config).check source).result = .error (.unparsable e) ∧
      ((new config).check source').result = .error (.unparsable e')) ∨
    ∃ found found' t t', ((new config).check source).result = .ok found ∧
      ((new config).check source').result = .ok found' ∧
      List.Forall₂ (Agree ls ls') found found' ∧ SyntaxTree.ofSource source = .ok t ∧
      SyntaxTree.ofSource source' = .ok t' ∧ t.SameButPlaces t' := by
  cases hos : (ofLexemes ls).outlines with
  | ok os => exact .inr (agree_of_outlines h h' htokens hos)
  | error e =>
    cases hos' : (ofLexemes ls').outlines with
    | ok os' =>
      -- what can be read in one layout can be read in the other
      have hback := outlines_relaid h' h htokens.symm hos'
      rw [hos] at hback
      cases hback
    | error e' =>
      exact .inl ⟨_, _, result_check_of_error h hos, result_check_of_error h' hos'⟩

/-- A class on one line. -/
def narrowSource : String :=
  "class A\x7bint x;void f(int x)\x7b\x7d\x7d"

/-- The same class on four lines, with comments. -/
def wideSource : String :=
  "class A \x7b // fields\n  int x;\r\n\tvoid f(int /* x */\n x) \x7b \x7d\x7d\n"

/-- The same tokens on one line and on several: the reports agree, token by token. -/
theorem check_relayout_wideSource :
    ∃ ls ls', tokenize narrowSource = .ok ls ∧ tokenize wideSource = .ok ls' ∧
      ls.map Lexeme.token = ls'.map Lexeme.token ∧
      List.Forall₂ (Agree ls ls')
        [⟨"hidden-field", .error, "'x' hides a field.", ["x"], .at ⟨1, 26⟩⟩]
        [⟨"hidden-field", .error, "'x' hides a field.", ["x"], .at ⟨4, 2⟩⟩] := by
  have htokens : ∃ ls, tokenize narrowSource = .ok ls ∧ (tokenize wideSource).toOption.any
      fun ls' => ls.map Lexeme.token = ls'.map Lexeme.token :=
    exists_ok_of_any (by decide +kernel)
  have hnarrow : ((new {}).check narrowSource).result =
      .ok [⟨"hidden-field", .error, "'x' hides a field.", ["x"], .at ⟨1, 26⟩⟩] :=
    eq_ok_of_toOption (by decide +kernel)
  have hwide : ((new {}).check wideSource).result =
      .ok [⟨"hidden-field", .error, "'x' hides a field.", ["x"], .at ⟨4, 2⟩⟩] :=
    eq_ok_of_toOption (by decide +kernel)
  obtain ⟨ls, hls, hany⟩ := htokens
  obtain ⟨ls', hls', hequal⟩ := exists_ok_of_any hany
  have htokens : ls.map Lexeme.token = ls'.map Lexeme.token := of_decide_eq_true hequal
  refine ⟨ls, ls', hls, hls', htokens, ?_⟩
  -- both sources are read, so the first of the two cases is void
  rcases check_relayout {} hls hls' htokens with
    ⟨e, _, herror, -⟩ | ⟨found, found', _, _, hfound, hfound', hagree, -⟩
  · rw [hnarrow] at herror
    cases herror
  · rw [hnarrow] at hfound
    rw [hwide] at hfound'
    rwa [Except.ok.inj hfound, Except.ok.inj hfound']

end Analyzer

end FieldShadow
