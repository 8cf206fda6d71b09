import FieldShadow.Proofs.Diagnostic.Limit
import FieldShadow.Proofs.Grammar.Conformance
import FieldShadow.Proofs.HiddenField.Shadowing

/-!
# Fields of bodies around a declaration

A reported declaration hides a field of a type that it stands below. In a tree that was read from a
text it then stands in the body of that type, unless the type is an enum constant and the
declaration stands in the arguments of the constant: the frame of a constant is on the stack while
its arguments are walked (`Analyzer.exists_type_of_reported`).
-/

namespace FieldShadow

namespace SyntaxTree

variable {t : SyntaxTree}

/-- Whether the body of a class, enum or enum constant declares a field of this name directly. -/
def Declares (t : SyntaxTree) (type : Nat) (name : String) : Prop :=
  ∃ isStatic, t.DeclaresField type name isStatic

/-- Whether a node stands in the body of a type. -/
def InBody (t : SyntaxTree) (type node : Nat) : Prop :=
  ∃ body ∈ t.ancestors node, t.typeBody? type = some body

/-- Whether a node stands in an anonymous class among the arguments of an enum constant. -/
def InArguments (t : SyntaxTree) (constant node : Nat) : Prop :=
  (t.kind? constant).any NodeKind.isEnumConstant ∧
    ∃ c ∈ t.ancestors node, c ∈ t.children constant ∧ (t.kind? c).any NodeKind.isAnonymousClass

instance (type : Nat) (name : String) : Decidable (t.Declares type name) :=
  decidable_of_iff (t.DeclaresField type name true ∨ t.DeclaresField type name false) <| by
    simp [Declares, or_comm]

instance (type node : Nat) : Decidable (t.InBody type node) :=
  inferInstanceAs (Decidable (∃ body ∈ _, _))

/-! ## Where the children of a type stand -/

/-- The children of a constant of an enum: anonymous classes, and at the end the body if it has
one. -/
theorem Conforms.children_enumConstant (ht : t.Conforms) {id : Nat} {name : String}
    (hkind : t.kind? id = some (.enumConstant name)) {c : Nat} (hc : c ∈ t.children id) :
    (t.kind? c).any NodeKind.isAnonymousClass ∨ t.typeBody? id = some c := by
  obtain ⟨classes, body, heq, hclasses, hbody⟩ := ht id _ hkind
  have hmap := map_kind?_children t id
  rw [heq, List.map_append] at hmap
  obtain ⟨before, after, hsplit, hbefore, hafter⟩ := List.map_eq_append_iff.mp hmap
  have hanonymous : ∀ c ∈ before, (t.kind? c).any NodeKind.isAnonymousClass := by
    intro c hc
    have hmem : t.kind? c ∈ classes.map some := hbefore ▸ List.mem_map_of_mem hc
    obtain ⟨kind, hmem, hkind⟩ := List.mem_map.mp hmem
    rw [← hkind]
    exact hclasses kind hmem
  rw [hsplit] at hc
  rcases List.mem_append.mp hc with hc | hc
  · exact .inl (hanonymous c hc)
  · right
    rcases hbody with rfl | rfl
    · simp [List.map_eq_nil_iff.mp hafter] at hc
    · obtain ⟨b, rfl, hb⟩ := List.map_eq_singleton_iff.mp hafter
      obtain rfl := List.mem_singleton.mp hc
      rw [typeBody?, hsplit, List.find?_append]
      -- no anonymous class in front of the body is taken for it
      have hnone : before.find? (fun c => t.kind? c = some .typeBody) = none := by
        refine List.find?_eq_none.mpr fun c hc hbody => ?_
        have := hanonymous c hc
        simp_all [NodeKind.isAnonymousClass]
      simp [hnone, hb]

/-- The only child of a class or an enum is its body. -/
theorem Conforms.children_type (ht : t.Conforms) {id : Nat} {kind : NodeKind}
    (hkind : t.kind? id = some kind) (htype : kind.isType) {c : Nat} (hc : c ∈ t.children id) :
    t.typeBody? id = some c := by
  have heq : t.childKinds id = [.typeBody] := by
    have hholds := ht id kind hkind
    cases kind <;> first | exact hholds | cases htype
  have hmap := map_kind?_children t id
  rw [heq] at hmap
  obtain ⟨b, hchildren, hb⟩ := List.map_eq_singleton_iff.mp hmap
  rw [hchildren] at hc
  obtain rfl := List.mem_singleton.mp hc
  simp [typeBody?, hchildren, hb]

/-- A declaration below a type stands in its body or, if the type is an enum constant, in its
arguments. -/
theorem Conforms.inBody_or_inArguments (ht : t.Conforms) (hl : t.Linked) {type node : Nat}
    {kind : NodeKind} (htype : (t.kind? type).any NodeKind.holdsFields)
    (habove : type ∈ t.ancestors node) (hkind : t.kind? node = some kind)
    (hdeclares : kind.declares?.isSome) : t.InBody type node ∨ t.InArguments type node := by
  obtain ⟨c, hc, hcnode⟩ := hl.exists_child habove
  obtain ⟨typeKind, htypeKind⟩ := Option.isSome_iff_exists.mp (Option.isSome_of_any htype)
  have hbelow : t.typeBody? type = some c → t.InBody type node := by
    intro hbody
    refine ⟨c, hcnode.resolve_left ?_, hbody⟩
    rintro rfl
    have := List.find?_some hbody
    simp_all [NodeKind.declares?]
  -- the way down to the node begins with a child of the type
  by_cases hconstant : typeKind.isEnumConstant
  · obtain ⟨name, rfl⟩ : ∃ name, typeKind = .enumConstant name := by
      cases typeKind <;> simp_all [NodeKind.isEnumConstant]
    rcases ht.children_enumConstant htypeKind hc with hanonymous | hbody
    · refine .inr ⟨by rw [htypeKind]; rfl, c, hcnode.resolve_left ?_, hc, hanonymous⟩
      rintro rfl
      rw [hkind] at hanonymous
      cases kind <;> simp_all [NodeKind.declares?, NodeKind.isAnonymousClass]
    · exact .inl (hbelow hbody)
  · refine .inl (hbelow (ht.children_type htypeKind ?_ hc))
    rw [htypeKind] at htype
    cases typeKind <;> simp_all [NodeKind.holdsFields, NodeKind.isEnumConstant, NodeKind.isType]

/-- The arguments of a constant are not in its body. -/
theorem Linked.not_inBody (hl : t.Linked) {constant node : Nat}
    (h : t.InArguments constant node) : ¬ t.InBody constant node := by
  rintro ⟨body, hbody, hfind⟩
  obtain ⟨-, c, hc, hchild, hanonymous⟩ := h
  have hbodyKind := List.find?_some hfind
  obtain rfl := hl.eq_of_mem_children (List.mem_of_find?_eq_some hfind) hchild hbody hc
  simp_all [NodeKind.isAnonymousClass]

end SyntaxTree

/-! ## What is left of a finding -/

/-- A graded finding comes of one with the same rule, name and span. -/
theorem Config.exists_of_mem_regrade {c : Config} {found : List Diagnostic} {d : Diagnostic}
    (h : d ∈ c.regrade found) :
    ∃ d' ∈ found, d'.rule = d.rule ∧ d'.arguments = d.arguments ∧ d'.span = d.span := by
  unfold regrade at h
  split at h
  · obtain ⟨d', hd', rfl⟩ := List.mem_map.mp h
    refine ⟨d', hd', ?_⟩
    unfold Diagnostic.promoted
    split <;> exact ⟨rfl, rfl, rfl⟩
  · exact ⟨d, h, rfl, rfl, rfl⟩

/-- What is reported was found, up to its severity, or is the note about the limit. -/
theorem Config.exists_of_mem_postProcess {c : Config} {found : List Diagnostic} {d : Diagnostic}
    (h : d ∈ c.postProcess found) (hrule : d.rule ≠ "error-limit") :
    ∃ d' ∈ found, d'.rule = d.rule ∧ d'.arguments = d.arguments ∧ d'.span = d.span := by
  rcases mem_regrade_or_limitNote h with hfound | ⟨count, limit, rfl⟩
  · exact exists_of_mem_regrade hfound
  · exact absurd rfl hrule

namespace Analyzer

/-- A report of the rule belongs to a declaration of a variable or parameter in the tree of the
source, which shadows a field. -/
theorem exists_shadowing_of_reported {source : String} {config : Config}
    {found : List Diagnostic} (h : ((new config).check source).result = .ok found)
    {d : Diagnostic} (hd : d ∈ found) (hrule : d.rule = "hidden-field") :
    ∃ t node n name kind, SyntaxTree.ofSource source = .ok t ∧ t.Grown ∧ t.Conforms ∧
      t.node? node = some n ∧ n.kind.declares? = some (name, kind) ∧ n.span = d.span ∧
      d.arguments = [name] ∧ t.Shadows config.hiddenField node name kind := by
  obtain ⟨t, ht, hanalyze⟩ := check_eq_ok h
  obtain ⟨hgrown, hconforms⟩ := Parser.conforms_of_next ht
  rw [analyze_eq hgrown.linked] at hanalyze
  rw [← Except.ok.inj hanalyze] at hd
  -- grading and limiting change neither the name nor the place
  obtain ⟨d', hd', -, harguments, hspan⟩ :=
    Config.exists_of_mem_postProcess hd (by rw [hrule]; decide)
  split at hd'
  · exact nomatch hd'
  · obtain ⟨node, -, hnode⟩ := List.mem_filterMap.mp hd'
    obtain ⟨n, name, kind, hn, hdeclares, hshadows, rfl⟩ := SyntaxTree.shadowing?_eq_some.mp hnode
    exact ⟨t, node, n, name, kind, ht, hgrown, hconforms, hn, hdeclares, hspan, harguments.symm,
      hshadows⟩

/-- A report names a declaration below a type that declares a field of its name. The declaration
stands in the body of such a type unless all of them are enum constants in whose arguments it
stands. -/
theorem exists_type_of_reported {source : String} {config : Config} {found : List Diagnostic}
    (h : ((new config).check source).result = .ok found) {d : Diagnostic} (hd : d ∈ found)
    (hrule : d.rule = "hidden-field") :
    ∃ t node name, SyntaxTree.ofSource source = .ok t ∧ t.span? node = some d.span ∧
      ((t.kind? node).bind NodeKind.declares?).any (·.1 = name) ∧ d.arguments = [name] ∧
      (∃ type ∈ t.ancestors node, t.Declares type name) ∧
      ((∃ type ∈ t.ancestors node, t.Declares type name ∧ t.InBody type node) ↔
        ¬ ∀ type ∈ t.ancestors node, t.Declares type name → t.InArguments type node) := by
  obtain ⟨t, node, n, name, kind, ht, hgrown, hconforms, hn, hdeclares, hspan, harguments,
    hshadows⟩ := exists_shadowing_of_reported h hd hrule
  have hkind : t.kind? node = some n.kind := by rw [SyntaxTree.kind?, hn]; rfl
  have hexists : ∃ type ∈ t.ancestors node, t.Declares type name := by
    -- an instance field or a static one; both are fields of a type above
    rcases hshadows.hides with ⟨type, habove, htype⟩ | ⟨-, type, habove, htype, -⟩
    · exact ⟨type, habove, true, htype⟩
    · exact ⟨type, habove, false, htype⟩
  refine ⟨t, node, name, ht, ?_, ?_, harguments, hexists, ?_, ?_⟩
  · rw [SyntaxTree.span?, hn, ← hspan]
    rfl
  · rw [hkind, Option.bind_some, hdeclares]
    simp
  · rintro ⟨type, habove, htype, hbody⟩ hall
    exact hgrown.linked.not_inBody (hall type habove htype) hbody
  · intro hall
    push Not at hall
    obtain ⟨type, habove, ⟨isStatic, htype⟩, hout⟩ := hall
    -- what lies in a type lies in its body or in the arguments of a constant
    have hplace := hconforms.inBody_or_inArguments hgrown.linked htype.1 habove hkind
      (by rw [hdeclares]; rfl)
    exact ⟨type, habove, ⟨isStatic, htype⟩, hplace.resolve_right hout⟩

/-- A method with a parameter that hides a field of its class. -/
def setterSource : String :=
  "class A \x7b int x; void f(int x) \x7b\x7d \x7d"

/-- The parameter is reported, and the class above it declares its name. -/
theorem exists_type_of_reported_setterSource :
    ∃ t node name, SyntaxTree.ofSource setterSource = .ok t ∧
      t.span? node = some (.at ⟨1, 29⟩) ∧
      ((t.kind? node).bind NodeKind.declares?).any (·.1 = name) ∧ ["x"] = [name] ∧
      (∃ type ∈ t.ancestors node, t.Declares type name) ∧
      ((∃ type ∈ t.ancestors node, t.Declares type name ∧ t.InBody type node) ↔
        ¬ ∀ type ∈ t.ancestors node, t.Declares type name → t.InArguments type node) := by
  have hcheck : ((new {}).check setterSource).result =
      .ok [⟨"hidden-field", .error, "'x' hides a field.", ["x"], .at ⟨1, 29⟩⟩] :=
    eq_ok_of_toOption (by decide +kernel)
  exact exists_type_of_reported hcheck List.mem_cons_self rfl

/-- A constant with a method in its arguments; a parameter of the method has the name of a field
that the body of the constant declares. -/
def constantSource : String :=
  "enum E \x7b A(new Object() \x7b void f(int x) \x7b\x7d \x7d) \x7b int x; \x7d \x7d"

/-- The parameter is reported, and no body around it declares a field of its name. -/
theorem reported_constantSource :
    ((new {}).check constantSource).result =
        .ok [⟨"hidden-field", .error, "'x' hides a field.", ["x"], .at ⟨1, 38⟩⟩] ∧
      (SyntaxTree.ofSource constantSource).toOption.any fun t =>
        (t.preorder SyntaxTree.root).all fun node => (t.span? node = some (.at ⟨1, 38⟩)) →
          ∀ type ∈ t.ancestors node, t.Declares type "x" → ¬ t.InBody type node :=
  ⟨eq_ok_of_toOption (by decide +kernel), by decide +kernel⟩

end Analyzer

end FieldShadow
