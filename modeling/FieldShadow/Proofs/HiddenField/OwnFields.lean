import FieldShadow.Proofs.HiddenField.Enclosure

/-!
# The fields of the own type

What a method, a constructor or an initializer declares is reported if its own type declares a
field of that name (`Analyzer.reported_of_own_field`), with one exception: constructors and
instance initializers do not end the search for static code, so a type that is declared inside a
static method or a static initializer has the instance fields hidden from its own constructors.
-/

namespace FieldShadow

namespace NodeKind

/-- Methods, constructors and initializers. -/
def isCode : NodeKind → Bool
  | .methodDef .. | .constructorDef .. | .staticInit | .instanceInit => true
  | _ => false

/-- A method. -/
def isMethod : NodeKind → Bool
  | .methodDef .. => true
  | _ => false

/-- What stands between a declaration and the method, constructor or initializer that it is in. -/
def isInsideCode : NodeKind → Bool
  | .block | .forInit | .forEachClause | .catchClause | .parameters => true
  | _ => false

/-- Only code, or what stands inside code, holds what stands inside code. -/
theorem Holds.isInsideCode_or_isCode {above? : Option NodeKind} {kind child : NodeKind}
    {children : List NodeKind} (h : kind.Holds above? children) (hchild : child ∈ children)
    (hinside : child.isInsideCode) : kind.isInsideCode ∨ kind.isCode := by
  -- what stands inside of code is nothing that types or enum constants hold
  have hother : ¬ (child.isMember ∨ child.isEnumConstant ∨ child.isAnonymousClass ∨
      child = .typeBody) := by
    cases child <;> simp_all [isInsideCode, isMember, isEnumConstant, isAnonymousClass, isType]
  cases kind with
  | block | forInit | forEachClause | catchClause | parameters => exact .inl rfl
  | methodDef | constructorDef | staticInit | instanceInit => exact .inr rfl
  | compilationUnit => exact absurd (.inl (isMember_of_isType (h child hchild))) hother
  | classDef | interfaceDef | annotationDef | enumDef | anonymousClass =>
    rw [h] at hchild
    exact absurd (.inr (.inr (.inr (List.mem_singleton.mp hchild)))) hother
  | enumConstant =>
    obtain ⟨classes, body, rfl, hclasses, hbody⟩ := h
    grind
  | typeBody => grind [Holds]
  | parameterDef =>
    rw [h] at hchild
    exact absurd hchild List.not_mem_nil
  | variableDef => exact absurd (.inr (.inr (.inl (h child hchild)))) hother

/-- Only parameter lists and `catch` clauses hold parameters. -/
theorem Holds.isInsideCode_of_isParameter {above? : Option NodeKind} {kind child : NodeKind}
    {children : List NodeKind} (h : kind.Holds above? children) (hchild : child ∈ children)
    (hparameter : child.isParameter) : kind.isInsideCode := by
  obtain ⟨name, ms, type, rfl⟩ : ∃ name ms type, child = .parameterDef name ms type := by
    cases child <;> simp_all [isParameter]
  cases kind <;> grind [Holds, isInsideCode, isType, isMember, isEnumConstant, isAnonymousClass,
    isVariable, isStatementPart]

/-- A constant of an enum stands in the body of an enum. -/
theorem Holds.isEnum_of_isEnumConstant {above? : Option NodeKind} {kind child : NodeKind}
    {children : List NodeKind} (h : kind.Holds above? children) (hchild : child ∈ children)
    (hconstant : child.isEnumConstant) : kind = .typeBody ∧ above?.any isEnum := by
  obtain ⟨name, rfl⟩ : ∃ name, child = .enumConstant name := by
    cases child <;> simp_all [isEnumConstant]
  cases kind <;> grind [Holds, isType, isMember, isEnumConstant, isAnonymousClass, isVariable,
    isStatementPart, isParameter]

end NodeKind

namespace SyntaxTree

variable {t : SyntaxTree}

/-- The method, constructor or initializer that a node is in. -/
def codeAround? (t : SyntaxTree) (node : Nat) : Option Nat :=
  (t.ancestors node).find? fun a => (t.kind? a).any NodeKind.isCode

/-- A local variable, or a parameter, of a member of a type that is no static code. -/
structure OwnLocal (t : SyntaxTree) (type member node : Nat) (name : String) : Prop where
  name_eq : (t.kind? node).bind NodeKind.name? = some name
  isLocal : t.isLocalVariable node ∨ (t.kind? node).any NodeKind.isParameter
  nearest : t.codeAround? node = some member
  inBody : (t.typeBody? type).any fun body => member ∈ t.children body
  holdsFields : (t.kind? type).any NodeKind.holdsFields
  notStatic : ¬ (t.kind? member).any NodeKind.isStaticCode

instance (type member node : Nat) (name : String) :
    Decidable (t.OwnLocal type member node name) :=
  decidable_of_iff
    ((t.kind? node).bind NodeKind.name? = some name ∧
      (t.isLocalVariable node ∨ (t.kind? node).any NodeKind.isParameter) ∧
      t.codeAround? node = some member ∧
      (t.typeBody? type).any (fun body => member ∈ t.children body) ∧
      (t.kind? type).any NodeKind.holdsFields ∧ ¬ (t.kind? member).any NodeKind.isStaticCode)
    ⟨fun ⟨h₁, h₂, h₃, h₄, h₅, h₆⟩ => ⟨h₁, h₂, h₃, h₄, h₅, h₆⟩,
      fun ⟨h₁, h₂, h₃, h₄, h₅, h₆⟩ => ⟨h₁, h₂, h₃, h₄, h₅, h₆⟩⟩

/-! ## The way up to the code around a declaration -/

/-- The nearest kind is that of the first ancestor of such a kind. -/
theorem nearest?_eq (t : SyntaxTree) (node : Nat) (p : NodeKind → Bool) :
    t.nearest? node p =
      ((t.ancestors node).find? fun a => (t.kind? a).any p).bind t.kind? := by
  unfold nearest? ancestorKinds
  induction t.ancestors node with
  | nil => rfl
  | cons a rest ih =>
    cases hkind : t.kind? a with
    | none => simp [hkind, ih]
    | some kind => by_cases hp : p kind <;> simp [hkind, hp, ih]

/-- A child stands among the kinds that its parent holds. -/
theorem Conforms.holds_parent (ht : t.Conforms) {p c : Nat} {kind : NodeKind}
    (hc : c ∈ t.children p) (hkind : t.kind? c = some kind) :
    ∃ kindAbove, t.kind? p = some kindAbove ∧
      kindAbove.Holds (t.kindAbove? p) (t.childKinds p) ∧ kind ∈ t.childKinds p := by
  have hlt := lt_of_mem_children hc
  obtain ⟨kindAbove, hp⟩ := exists_kind (Nat.lt_trans hlt.1 hlt.2)
  exact ⟨kindAbove, hp, ht p _ hp, List.mem_filterMap.mpr ⟨c, hc, hkind⟩⟩

/-- Going up from what stands inside code, one comes past such nodes only, until one comes to the
code. -/
theorem Conforms.ancestors_eq (ht : t.Conforms) (hl : t.Linked) {node : Nat}
    (h : (t.kindAbove? node).any NodeKind.isInsideCode) :
    ∃ inner member, t.ancestors node = inner ++ member :: t.ancestors member ∧
      (∀ a ∈ inner, (t.kind? a).any NodeKind.isInsideCode) ∧
      (t.kind? member).any NodeKind.isCode := by
  induction node using Nat.strongRecOn with
  | _ node ih =>
    obtain ⟨kind, habove, hinside⟩ := (Option.any_eq_true _ _).mp h
    obtain ⟨p, hp, hkind⟩ := Option.bind_eq_some_iff.mp habove
    have hroot : p ≠ root := by
      rintro rfl
      rw [hl.kind_root] at hkind
      obtain rfl := Option.some.inj hkind
      cases hinside
    obtain ⟨q, hq⟩ := hl.exists_parent p hroot (lt_size_of_kind? hkind)
    obtain ⟨kindAbove, hkq, hholds, hmem⟩ := ht.holds_parent ((hl.mem_children q p).mpr hq) hkind
    rw [ancestors_of_parent? hp]
    -- the parent stands inside code, or what holds it is the code
    rcases hholds.isInsideCode_or_isCode hmem hinside with hq' | hq'
    · have hpinside : (t.kindAbove? p).any NodeKind.isInsideCode := by
        simp [kindAbove?, hq, hkq, hq']
      obtain ⟨inner, member, heq, hinner, hcode⟩ := ih p (parent?_lt hp) hpinside
      refine ⟨p :: inner, member, by rw [heq, List.cons_append], ?_, hcode⟩
      exact List.forall_mem_cons.mpr ⟨by simp [hkind, hinside], hinner⟩
    · refine ⟨[p], q, by rw [ancestors_of_parent? hq]; rfl, ?_, by simp [hkq, hq']⟩
      simp [hkind, hinside]

section

variable {type member node : Nat} {name : String}

/-- A local of a type stands in code, not among members. -/
theorem OwnLocal.isInsideCode_above (h : t.OwnLocal type member node name) (ht : t.Conforms)
    (hl : t.Linked) : (t.kindAbove? node).any NodeKind.isInsideCode := by
  rcases h.isLocal with hlocal | hparameter
  · unfold isLocalVariable at hlocal
    unfold kindAbove?
    split at hlocal <;> simp_all [NodeKind.isInsideCode]
  · obtain ⟨kind, hkind, hparameter⟩ := (Option.any_eq_true _ _).mp hparameter
    have hroot : node ≠ root := by
      rintro rfl
      rw [hl.kind_root] at hkind
      obtain rfl := Option.some.inj hkind
      cases hparameter
    obtain ⟨p, hp⟩ := hl.exists_parent node hroot (lt_size_of_kind? hkind)
    obtain ⟨kindAbove, hkp, hholds, hmem⟩ :=
      ht.holds_parent ((hl.mem_children p node).mpr hp) hkind
    simp [kindAbove?, hp, hkp, hholds.isInsideCode_of_isParameter hmem hparameter]

/-- Above an own local stand nodes inside its member, the member, the body and the type. -/
theorem OwnLocal.ancestors_eq (h : t.OwnLocal type member node name) (ht : t.Conforms)
    (hl : t.Linked) :
    ∃ inner body, t.ancestors node = inner ++ member :: body :: type :: t.ancestors type ∧
      (∀ a ∈ inner, (t.kind? a).any NodeKind.isInsideCode) ∧
      (t.kind? member).any NodeKind.isCode ∧ t.kind? body = some .typeBody := by
  obtain ⟨inner, code, heq, hinner, hcode⟩ := ht.ancestors_eq hl (h.isInsideCode_above ht hl)
  obtain ⟨body, hbody, hchild⟩ := (Option.any_eq_true _ _).mp h.inBody
  have hmember : code = member := by
    -- nothing in between is code, so the nearest code is the member itself
    have hnone : inner.find? (fun a => (t.kind? a).any NodeKind.isCode) = none := by
      refine List.find?_eq_none.mpr fun a ha hcode => ?_
      obtain ⟨kind, hkind, hinside⟩ := (Option.any_eq_true _ _).mp (hinner a ha)
      rw [hkind] at hcode
      cases kind <;> simp_all [NodeKind.isInsideCode, NodeKind.isCode]
    have hnearest := h.nearest
    rw [codeAround?, heq, List.find?_append, hnone, Option.none_or] at hnearest
    simpa [hcode] using hnearest
  subst hmember
  refine ⟨inner, body, ?_, hinner, hcode, by simpa using List.find?_some hbody⟩
  rw [heq, hl.ancestors_child (by simpa using hchild),
    hl.ancestors_child (List.mem_of_find?_eq_some hbody)]

/-- What is searched for above an own local and does not stand inside code. -/
theorem OwnLocal.nearest?_eq (h : t.OwnLocal type member node name) (ht : t.Conforms)
    (hl : t.Linked) {p : NodeKind → Bool} (hp : ∀ kind, kind.isInsideCode → p kind = false)
    (hbody : p .typeBody = false) :
    t.nearest? node p =
      ((member :: type :: t.ancestors type).find? fun a => (t.kind? a).any p).bind t.kind? := by
  obtain ⟨inner, body, heq, hinner, -, hbodyKind⟩ := h.ancestors_eq ht hl
  have hnone : inner.find? (fun a => (t.kind? a).any p) = none := by
    refine List.find?_eq_none.mpr fun a ha hpa => ?_
    obtain ⟨kind, hkind, hinside⟩ := (Option.any_eq_true _ _).mp (hinner a ha)
    simp [hkind, hp kind hinside] at hpa
  rw [SyntaxTree.nearest?_eq, heq, List.find?_append, hnone, Option.none_or]
  simp [List.find?_cons, hbodyKind, hbody]

/-- What is declared in a class, an enum or a constant is not outside of what is checked. -/
theorem OwnLocal.not_isInterface (h : t.OwnLocal type member node name) (ht : t.Conforms)
    (hl : t.Linked) :
    ¬ (t.nearest? node NodeKind.isTypeAround).any NodeKind.isInterface := by
  obtain ⟨-, -, -, -, hcode, -⟩ := h.ancestors_eq ht hl
  -- the member itself is code and no type
  have hnotMember : (t.kind? member).any NodeKind.isTypeAround = false := by
    obtain ⟨kind, hkind, hcode⟩ := (Option.any_eq_true _ _).mp hcode
    cases kind <;> simp_all [NodeKind.isCode, NodeKind.isTypeAround]
  rw [h.nearest?_eq ht hl (fun kind hinside => by
    cases kind <;> simp_all [NodeKind.isInsideCode, NodeKind.isTypeAround]) rfl]
  rw [List.find?_cons, hnotMember]
  obtain ⟨kind, hkind, hholds⟩ := (Option.any_eq_true _ _).mp h.holdsFields
  by_cases hconstant : kind.isEnumConstant
  · -- a constant is in the body of its enum
    have hroot : type ≠ root := by
      rintro rfl
      rw [hl.kind_root] at hkind
      obtain rfl := Option.some.inj hkind
      cases hconstant
    -- its parent is the body, whose parent the enum is
    obtain ⟨body, hbody⟩ := hl.exists_parent type hroot (lt_size_of_kind? hkind)
    obtain ⟨kindAbove, hbodyKind, hbodyHolds, hmem⟩ :=
      ht.holds_parent ((hl.mem_children body type).mpr hbody) hkind
    obtain ⟨rfl, henum⟩ := hbodyHolds.isEnum_of_isEnumConstant hmem hconstant
    obtain ⟨enumKind, habove, henum⟩ := (Option.any_eq_true _ _).mp henum
    obtain ⟨enum, henumParent, henumKind⟩ := Option.bind_eq_some_iff.mp habove
    rw [ancestors_of_parent? hbody, ancestors_of_parent? henumParent]
    cases kind <;> cases enumKind <;>
      simp_all [NodeKind.isTypeAround, NodeKind.isInterface, NodeKind.isEnum,
        NodeKind.isEnumConstant]
  · cases kind <;>
      simp_all [NodeKind.isTypeAround, NodeKind.isInterface, NodeKind.holdsFields,
        NodeKind.isEnumConstant]

/-- What a method of the type declares is not in static code. -/
theorem OwnLocal.not_inStaticCode (h : t.OwnLocal type member node name) (ht : t.Conforms)
    (hl : t.Linked) (hmethod : (t.kind? member).any NodeKind.isMethod) :
    ¬ t.InStaticCode node := by
  obtain ⟨kind, hkind, hmethod⟩ := (Option.any_eq_true _ _).mp hmethod
  have hnot := h.notStatic
  unfold InStaticCode
  rw [h.nearest?_eq ht hl (fun kind hinside => by
    cases kind <;> simp_all [NodeKind.isInsideCode, NodeKind.isCodeAround]) rfl]
  cases kind <;> simp_all [NodeKind.isMethod, NodeKind.isCodeAround]

/-- An own local sees the instance fields of its type. -/
theorem OwnLocal.seesInstance (h : t.OwnLocal type member node name) (ht : t.Conforms)
    (hl : t.Linked) (hfield : t.DeclaresField type name false) : t.SeesInstance node name := by
  obtain ⟨inner, body, heq, hinner, hcode, hbody⟩ := h.ancestors_eq ht hl
  refine ⟨type, by simp [heq], hfield, fun between hbetween habove => ?_⟩
  unfold IsStaticClass
  have hlt := lt_of_mem_ancestors habove
  rw [heq] at hbetween
  rcases List.mem_append.mp hbetween with hmem | hmem
  · obtain ⟨kind, hkind, hinside⟩ := (Option.any_eq_true _ _).mp (hinner between hmem)
    cases kind <;> simp_all [NodeKind.isInsideCode, NodeKind.isStaticClass]
  · rcases List.mem_cons.mp hmem with rfl | hmem
    · obtain ⟨kind, hkind, hcode⟩ := (Option.any_eq_true _ _).mp hcode
      cases kind <;> simp_all [NodeKind.isCode, NodeKind.isStaticClass]
    · rcases List.mem_cons.mp hmem with rfl | hmem
      · simp [hbody, NodeKind.isStaticClass]
      · -- no other node lies between the two
        rcases List.mem_cons.mp hmem with rfl | hmem
        · exact absurd hlt (Nat.lt_irrefl _)
        · exact absurd (lt_of_mem_ancestors hmem) (by omega)

/-- What declares an own local, and where a variable stands. -/
theorem OwnLocal.exists_declares (h : t.OwnLocal type member node name) :
    ∃ n kind, t.node? node = some n ∧ n.kind.declares? = some (name, kind) ∧
      (kind = .variable → ((t.parent? node).bind t.kind?).any NodeKind.holdsLocals) := by
  obtain ⟨kind, hkind, hname⟩ := Option.bind_eq_some_iff.mp h.name_eq
  obtain ⟨⟨kind, span, parent?, children⟩, hn, rfl⟩ := Option.map_eq_some_iff.mp hkind
  have hlocal := h.isLocal
  cases kind with
  | variableDef name' ms type =>
    refine ⟨_, .variable, hn, by simp_all [NodeKind.declares?, NodeKind.name?], fun _ => ?_⟩
    rw [← HiddenFieldRule.isLocalVariable_iff hkind]
    refine hlocal.resolve_right ?_
    rw [hkind]
    exact Bool.false_ne_true
  | parameterDef name' ms type =>
    exact ⟨_, .parameter, hn, by simp_all [NodeKind.declares?, NodeKind.name?],
      DeclarationKind.noConfusion⟩
  | _ => simp [isLocalVariable, hkind, NodeKind.isParameter] at hlocal

/-- An own local whose type declares a field of its name is reported, unless it is in static code
and no field of its name is static. -/
theorem OwnLocal.shadows (h : t.OwnLocal type member node name) (ht : t.Conforms) (hl : t.Linked)
    (hfield : t.Declares type name)
    (hseen : (t.kind? member).any NodeKind.isMethod ∨ t.SeesStatic node name ∨
      ¬ t.InStaticCode node) :
    ∃ d, t.shadowing? {} node = some d ∧ d.rule = "hidden-field" ∧ d.arguments = [name] ∧
      t.span? node = some d.span := by
  obtain ⟨n, kind, hn, hdeclares, hlocal⟩ := h.exists_declares
  have hhides : t.SeesStatic node name ∨ ¬ t.InStaticCode node ∧ t.SeesInstance node name := by
    -- outside of static code the own field is seen, be it static or not
    have hvisible : ¬ t.InStaticCode node → t.SeesStatic node name ∨
        ¬ t.InStaticCode node ∧ t.SeesInstance node name := by
      intro hnot
      obtain ⟨isStatic, hfield⟩ := hfield
      cases isStatic with
      | true =>
        obtain ⟨inner, body, heq, -⟩ := h.ancestors_eq ht hl
        exact .inl ⟨type, by simp [heq], hfield⟩
      | false => exact .inr ⟨hnot, h.seesInstance ht hl hfield⟩
    rcases hseen with hmethod | hstatic | hnot
    · exact hvisible (h.not_inStaticCode ht hl hmethod)
    · exact .inl hstatic
    · exact hvisible hnot
  have hshadows : t.Shadows {} node name kind :=
    { enabled := by cases kind <;> rfl
      outside := h.not_isInterface ht hl
      isLocal := hlocal
      hides := hhides
      counts := not_isExempt_default }
  refine ⟨_, shadowing?_eq_some.mpr ⟨n, name, kind, hn, hdeclares, hshadows, rfl⟩, rfl, rfl, ?_⟩
  rw [span?, hn]
  rfl

end

end SyntaxTree

namespace Analyzer

/-- Under the default configuration a local variable or parameter of a member is reported if the
type of the member declares a field of its name, the member is no static code, and either the
member is a method, or a field of that name is static, or no static code is around the member. -/
theorem reported_of_own_field {source : String} {found : List Diagnostic}
    (h : ((new {}).check source).result = .ok found) {t : SyntaxTree}
    (ht : SyntaxTree.ofSource source = .ok t) {type member node : Nat} {name : String}
    (hown : t.OwnLocal type member node name) (hfield : t.Declares type name)
    (hseen : (t.kind? member).any NodeKind.isMethod ∨ t.SeesStatic node name ∨
      ¬ t.InStaticCode node) :
    ∃ d ∈ found, d.rule = "hidden-field" ∧ d.arguments = [name] ∧ t.span? node = some d.span := by
  obtain ⟨t', ht', hanalyze⟩ := check_eq_ok h
  obtain rfl := Except.ok.inj (ht.symm.trans ht')
  obtain ⟨hgrown, hconforms⟩ := Parser.conforms_of_next ht
  obtain ⟨d, hd, hrule, harguments, hspan⟩ := hown.shadows hconforms hgrown.linked hfield hseen
  rw [analyze_eq hgrown.linked] at hanalyze
  have hfound : t.shadowings {} = found := Except.ok.inj hanalyze
  refine ⟨d, ?_, hrule, harguments, hspan⟩
  rw [← hfound]
  refine List.mem_filterMap.mpr ⟨node, (hgrown.linked.mem_preorder_root node).mpr ?_, hd⟩
  -- a node that is reported exists, so the walk comes by it
  obtain ⟨n, -, -, hn, -⟩ := SyntaxTree.shadowing?_eq_some.mp hd
  exact Nat.lt_of_not_le fun hle => by simp [SyntaxTree.node?_of_size_le hle] at hn

/-- A class that is declared in a static method, with a field and a method. -/
def localClassSource : String :=
  "class A \x7b static void m() \x7b class L \x7b int x; void f(int x) \x7b\x7d \x7d \x7d \x7d"

/-- The parameter of a method of the local class is reported for the field of that class, in spite
of the static method around both. -/
theorem reported_localClassSource :
    ∃ t, SyntaxTree.ofSource localClassSource = .ok t ∧ t.OwnLocal 6 9 11 "x" ∧
      ∃ d ∈ [(⟨"hidden-field", .error, "'x' hides a field.", ["x"], .at ⟨1, 57⟩⟩ : Diagnostic)],
        d.rule = "hidden-field" ∧ d.arguments = ["x"] ∧ t.span? 11 = some d.span := by
  have hread : (SyntaxTree.ofSource localClassSource).toOption.any fun t =>
      t.OwnLocal 6 9 11 "x" ∧ t.Declares 6 "x" ∧ (t.kind? 9).any NodeKind.isMethod := by
    decide +kernel
  obtain ⟨t, ht, hfacts⟩ := exists_ok_of_any hread
  obtain ⟨hown, hfield, hmethod⟩ := of_decide_eq_true hfacts
  have hcheck : ((new {}).check localClassSource).result =
      .ok [⟨"hidden-field", .error, "'x' hides a field.", ["x"], .at ⟨1, 57⟩⟩] :=
    eq_ok_of_toOption (by decide +kernel)
  exact ⟨t, ht, hown, reported_of_own_field hcheck ht hown hfield (.inl hmethod)⟩

/-- The same class with a constructor in place of the method. -/
def constructorSource : String :=
  "class A \x7b static void m() \x7b class L \x7b int x; L(int x) \x7b\x7d \x7d \x7d \x7d"

/-- The parameter of the constructor is not reported. -/
theorem unreported_constructorSource :
    ((new {}).check constructorSource).result = .ok [] ∧
      (SyntaxTree.ofSource constructorSource).toOption.any fun t =>
        t.OwnLocal 6 9 11 "x" ∧ t.Declares 6 "x" :=
  ⟨eq_ok_of_toOption (by decide +kernel), by decide +kernel⟩

end Analyzer

end FieldShadow
