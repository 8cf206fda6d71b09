import FieldShadow.Analyzer
import FieldShadow.Proofs.HiddenField.Exemption

/-!
# Shadowing

`Shadows` says of a node, by what stands around it in the tree alone, that it declares a variable or
parameter that hides a field. The rule, which is told of one event of a walk after the other and
keeps a stack, finds exactly these declarations in the order of the tree: at every event its stack
is that of the node (`finds_eventsFrom`), so a whole walk finds the `shadowings` of the tree
(`analyze_eq`).

## Shape of the argument

There are two descriptions of the same thing. `Shadows` is about a tree: which node declares what,
what the bodies around it declare, which of the exemptions hold. The rule is about events: it pushes
a frame, pops one, or looks a name up. They meet in the stack that belongs to a node (`scopesAt`).
Looking names up in it is asking about the types above the node, and so the checks of the rule come
to what `Shadows` says (`shadows_iff_checks`, `finds_declare`).

That the rule has this stack when it comes to the node is an invariant of the walk: a walk from a
node whose stack is its own finds the shadowings below it and ends with the same stack
(`finds_eventsFrom`, by induction over the tree).
-/

namespace FieldShadow

/-- Kinds that decide whether what stands in them belongs to an interface. -/
def NodeKind.isTypeAround : NodeKind → Bool
  | .classDef .. | .enumDef .. | .anonymousClass _ | .interfaceDef .. | .annotationDef .. => true
  | _ => false

/-- Interfaces and annotation types. -/
def NodeKind.isInterface : NodeKind → Bool
  | .interfaceDef .. | .annotationDef .. => true
  | _ => false

/-- Kinds that decide whether what stands in them is static. -/
def NodeKind.isCodeAround : NodeKind → Bool
  | .staticInit | .methodDef .. => true
  | _ => false

/-- Static initializers and static methods. -/
def NodeKind.isStaticCode : NodeKind → Bool
  | .staticInit => true
  | .methodDef _ ms _ => ms.contains .static
  | _ => false

/-- Kinds that hold local variables. -/
def NodeKind.holdsLocals : NodeKind → Bool
  | .block | .forInit | .forEachClause => true
  | _ => false

namespace SyntaxTree

/-- The kind of the nearest node above a node that `p` holds of. -/
def nearest? (t : SyntaxTree) (node : Nat) (p : NodeKind → Bool) : Option NodeKind :=
  (t.ancestorKinds node).find? p

/-- Whether a node belongs to static code: of the static initializers and methods around it the
nearest is an initializer or a static method. -/
def InStaticCode (t : SyntaxTree) (node : Nat) : Prop :=
  (t.nearest? node NodeKind.isCodeAround).any NodeKind.isStaticCode

instance (t : SyntaxTree) (node : Nat) : Decidable (t.InStaticCode node) :=
  inferInstanceAs (Decidable (_ = true))

/-- A node, which declares a variable or parameter of this name, hides a field and is to be
reported. -/
structure Shadows (t : SyntaxTree) (s : Settings) (node : Nat) (name : String)
    (kind : DeclarationKind) : Prop where
  enabled : s.kinds.includes kind
  outside : ¬ (t.nearest? node NodeKind.isTypeAround).any NodeKind.isInterface
  isLocal : kind = .variable → ((t.parent? node).bind t.kind?).any NodeKind.holdsLocals
  hides : t.SeesStatic node name ∨ ¬ t.InStaticCode node ∧ t.SeesInstance node name
  counts : ¬ t.IsExempt s node name kind

/-- The conditions of a shadowing as one conjunction, in the order in which the rule asks for them.
-/
theorem shadows_iff {t : SyntaxTree} {s : Settings} {node : Nat} {name : String}
    {kind : DeclarationKind} :
    t.Shadows s node name kind ↔
      s.kinds.includes kind ∧
      ¬ (t.nearest? node NodeKind.isTypeAround).any NodeKind.isInterface ∧
      (kind = .variable → ((t.parent? node).bind t.kind?).any NodeKind.holdsLocals) ∧
      (t.SeesStatic node name ∨ ¬ t.InStaticCode node ∧ t.SeesInstance node name) ∧
      ¬ t.IsExempt s node name kind :=
  ⟨fun ⟨h₁, h₂, h₃, h₄, h₅⟩ => ⟨h₁, h₂, h₃, h₄, h₅⟩,
    fun ⟨h₁, h₂, h₃, h₄, h₅⟩ => ⟨h₁, h₂, h₃, h₄, h₅⟩⟩

instance (t : SyntaxTree) (s : Settings) (node : Nat) (name : String) (kind : DeclarationKind) :
    Decidable (t.Shadows s node name kind) :=
  decidable_of_iff' _ shadows_iff

/-- The report of a node that hides a field. -/
def shadowing? (t : SyntaxTree) (s : Settings) (node : Nat) : Option Diagnostic := do
  let n ← t.node? node
  let (name, kind) ← n.kind.declares?
  guard (t.Shadows s node name kind)
  return {
    rule := "hidden-field"
    severity := s.severity
    message := "'" ++ name ++ "' hides a field."
    arguments := [name]
    span := n.span }

/-- A node is reported exactly if it declares a name that shadows a field; the report quotes the
name and has the span of the node. -/
theorem shadowing?_eq_some {t : SyntaxTree} {s : Settings} {node : Nat} {d : Diagnostic} :
    t.shadowing? s node = some d ↔
      ∃ n name kind, t.node? node = some n ∧ n.kind.declares? = some (name, kind) ∧
        t.Shadows s node name kind ∧
        d = ⟨"hidden-field", s.severity, "'" ++ name ++ "' hides a field.", [name], n.span⟩ := by
  rw [shadowing?]
  constructor
  · intro h
    obtain ⟨n, hn, h⟩ := Option.bind_eq_some_iff.mp h
    obtain ⟨⟨name, kind⟩, hdeclares, h⟩ := Option.bind_eq_some_iff.mp h
    obtain ⟨_, hguard, h⟩ := Option.bind_eq_some_iff.mp h
    by_cases hshadows : t.Shadows s node name kind
    · exact ⟨n, name, kind, hn, hdeclares, hshadows, (Option.some.inj h).symm⟩
    · cases hguard.symm.trans (if_neg hshadows)
  · rintro ⟨n, name, kind, hn, hdeclares, hshadows, rfl⟩
    refine Option.bind_eq_some_iff.mpr ⟨n, hn, ?_⟩
    refine Option.bind_eq_some_iff.mpr ⟨(name, kind), hdeclares, ?_⟩
    exact Option.bind_eq_some_iff.mpr ⟨(), if_pos hshadows, rfl⟩

/-- Without a shadowing nothing is reported. -/
theorem shadowing?_eq_none_of_not {t : SyntaxTree} {s : Settings} {node : Nat}
    (h : ∀ n name kind, t.node? node = some n → n.kind.declares? = some (name, kind) →
      ¬ t.Shadows s node name kind) : t.shadowing? s node = none := by
  cases heq : t.shadowing? s node with
  | none => rfl
  | some d =>
    obtain ⟨n, name, kind, hn, hdeclares, hshadows, -⟩ := shadowing?_eq_some.mp heq
    exact absurd hshadows (h n name kind hn hdeclares)

/-- The reports of all nodes that hide fields, in the order of the tree. -/
def shadowings (t : SyntaxTree) (s : Settings) : List Diagnostic :=
  (t.preorder root).filterMap (t.shadowing? s)

end SyntaxTree

/-! ## Runs of steps -/

namespace Outcome

variable {σ τ ε : Type}

/-- A step or a run went well, and this is what it found and where it led. -/
structure Finds (o : Outcome σ) (found : List Diagnostic) (state : σ) : Prop where
  state_eq : o.state = state
  found_eq : o.found = found
  failure_eq : o.failure? = none

/-- An outcome without findings has found nothing. -/
theorem Finds.quiet (state : σ) : (Outcome.quiet state).Finds [] state :=
  ⟨rfl, rfl, rfl⟩

/-- What is found by two steps behind each other is what both find. -/
theorem Finds.andThen {o : Outcome σ} {found found' : List Diagnostic} {state : σ} {state' : τ}
    {fail : σ → τ} {next : σ → Outcome τ} (h : o.Finds found state)
    (h' : (next state).Finds found' state') :
    (o.andThen fail next).Finds (found ++ found') state' := by
  obtain ⟨rfl, rfl, hfail⟩ := h
  simp only [Outcome.andThen, hfail]
  exact ⟨h'.state_eq, by rw [h'.found_eq], h'.failure_eq⟩

/-- A run finds what its first step and the run behind it find. -/
theorem Finds.runAll_cons {step : σ → ε → Outcome σ} {s s' s'' : σ} {e : ε} {es : List ε}
    {found found' : List Diagnostic} (h : (step s e).Finds found s')
    (h' : (runAll step s' es).Finds found' s'') :
    (runAll step s (e :: es)).Finds (found ++ found') s'' :=
  h.andThen h'

theorem Finds.runAll_append {step : σ → ε → Outcome σ} {s s' s'' : σ} {es es' : List ε}
    {found found' : List Diagnostic} (h : (runAll step s es).Finds found s')
    (h' : (runAll step s' es').Finds found' s'') :
    (runAll step s (es ++ es')).Finds (found ++ found') s'' := by
  induction es generalizing s found with
  | nil =>
    obtain ⟨rfl, rfl, -⟩ := h
    exact h'
  | cons e es ih =>
    obtain ⟨hstate, hfound, hfail⟩ := h
    simp only [runAll, Outcome.andThen] at hstate hfound hfail
    cases hstep : (step s e).failure? with
    | some error => simp [hstep] at hfail
    | none =>
      simp only [hstep] at hstate hfound hfail
      have htail := ih ⟨hstate, rfl, hfail⟩
      rw [← hfound, List.append_assoc]
      exact Finds.runAll_cons ⟨rfl, rfl, hstep⟩ htail

end Outcome

namespace HiddenFieldRule

open SyntaxTree Outcome

variable {t : SyntaxTree} {s : Settings}

/-! ## What the rule asks of the tree -/

/-- The rule looks for an interface from the inside out, which is the nearest type around the node.
-/
theorem inInterfaceBody_eq (t : SyntaxTree) (node : Nat) :
    t.inInterfaceBody node = (t.nearest? node NodeKind.isTypeAround).any NodeKind.isInterface := by
  unfold inInterfaceBody nearest?
  induction t.ancestorKinds node with
  | nil => rfl
  | cons kind kinds ih =>
    cases kind with
    | classDef | enumDef | anonymousClass | interfaceDef | annotationDef => rfl
    | _ => exact ih

/-- The rule's loop over the ancestors answers whether the node is in static code. -/
theorem inStaticContext_iff (t : SyntaxTree) (node : Nat) :
    inStaticContext t node = true ↔ t.InStaticCode node := by
  unfold inStaticContext InStaticCode nearest?
  induction t.ancestorKinds node with
  | nil => simp
  | cons kind kinds ih =>
    cases kind with
    | staticInit | methodDef => exact Iff.rfl
    | _ => exact ih

/-- A variable is local exactly if its parent is of a kind that holds locals; all others are fields.
-/
theorem isLocalVariable_iff {node : Nat} {name : String} {ms : List Modifier} {type : TypeRef}
    (h : t.kind? node = some (.variableDef name ms type)) :
    t.isLocalVariable node = true ↔
      ((t.parent? node).bind t.kind?).any NodeKind.holdsLocals = true := by
  unfold isLocalVariable
  rw [h]
  cases (t.parent? node).bind t.kind? with
  | none => simp
  | some kind => cases kind <;> simp [NodeKind.holdsLocals]

/-- What the rule considers before it looks names up, without its loops. -/
theorem considers_iff {node : Nat} {n : Node} {name : String} {kind : DeclarationKind}
    (hnode : t.node? node = some n) (hdecl : n.kind.declares? = some (name, kind))
    (r : HiddenFieldRule) :
    r.considers t node kind = true ↔
      r.settings.kinds.includes kind = true ∧
      ¬ (t.nearest? node NodeKind.isTypeAround).any NodeKind.isInterface = true ∧
      (kind = .variable → ((t.parent? node).bind t.kind?).any NodeKind.holdsLocals = true) := by
  have hkind : t.kind? node = some n.kind := by rw [kind?, hnode, Option.map_some]
  rw [considers, inInterfaceBody_eq, Bool.and_eq_true, Bool.and_eq_true, and_assoc]
  refine and_congr_right' (and_congr (by simp) ?_)
  cases hn : n.kind with
  | variableDef name' ms type =>
    rw [hn, NodeKind.declares?, Option.some.injEq, Prod.mk.injEq] at hdecl
    obtain ⟨-, rfl⟩ := hdecl
    simp [isLocalVariable_iff (hkind.trans (congrArg some hn))]
  | parameterDef name' ms type =>
    rw [hn, NodeKind.declares?, Option.some.injEq, Prod.mk.injEq] at hdecl
    obtain ⟨-, rfl⟩ := hdecl
    simp
  | _ => simp [hn, NodeKind.declares?] at hdecl

/-- With the scopes of the node on the stack, the look-up answers whether a field is seen from it.
-/
theorem isField_iff (r : HiddenFieldRule) {node : Nat} (h : r.scopes = scopesAt t node)
    (name : String) :
    r.isField name (inStaticContext t node) = true ↔
      t.SeesStatic node name ∨ ¬ t.InStaticCode node ∧ t.SeesInstance node name := by
  rw [isField, h, Bool.or_eq_true, Bool.and_eq_true, hasStatic_scopesAt, hasInstance_scopesAt,
    ← inStaticContext_iff, Bool.not_eq_true', Bool.not_eq_true]

/-- What shadowing means is what the rule checks with the stack of the node. -/
theorem shadows_iff_checks {node : Nat} {n : Node} {name : String} {kind : DeclarationKind}
    (hnode : t.node? node = some n) (hdecl : n.kind.declares? = some (name, kind))
    {r : HiddenFieldRule} (hr : r.scopes = scopesAt t node) :
    t.Shadows r.settings node name kind ↔
      r.considers t node kind = true ∧ r.isField name (inStaticContext t node) = true ∧
      Exemption.find? r.settings t ⟨node, name, kind, r.scopes.enclosingType?⟩ = none := by
  rw [shadows_iff, considers_iff hnode hdecl, isField_iff r hr, hr, enclosingType?_scopesAt,
    Exemption.find?, List.find?_eq_none, isExempt_iff]
  simp only [not_exists, not_and, and_assoc]

/-! ## What the rule finds -/

/-- Nodes that declare nothing are not reported. -/
theorem shadowing?_eq_none {node : Nat} {kind : NodeKind} (hkind : t.kind? node = some kind)
    (h : kind.declares? = none) (s : Settings) : t.shadowing? s node = none := by
  obtain ⟨n, hnode, rfl⟩ := Option.map_eq_some_iff.mp hkind
  refine shadowing?_eq_none_of_not fun n' name kind' hn' hdeclares => ?_
  obtain rfl := Option.some.inj (hnode.symm.trans hn')
  simp [h] at hdeclares

/-- With the stack of a node the rule finds the node's shadowing, and keeps the stack. -/
theorem finds_declare (r : HiddenFieldRule) {node : Nat} (hr : r.scopes = scopesAt t node) :
    (r.declare t node).Finds (t.shadowing? r.settings node).toList r := by
  cases hnode : t.node? node with
  | none =>
    have hnone : t.shadowing? r.settings node = none :=
      shadowing?_eq_none_of_not fun n name kind hn => by simp [hnode] at hn
    simpa [declare, hnode, hnone] using Finds.quiet r
  | some n =>
    cases hdecl : n.kind.declares? with
    | none =>
      have hnone : t.shadowing? r.settings node = none :=
        shadowing?_eq_none (by simp [kind?, hnode]) hdecl _
      simpa [declare, hnode, hdecl, hnone] using Finds.quiet r
    | some declared =>
      obtain ⟨name, kind⟩ := declared
      have hiff := shadows_iff_checks hnode hdecl hr
      have hnone (hshadows : ¬ t.Shadows r.settings node name kind) :
          t.shadowing? r.settings node = none :=
        shadowing?_eq_none_of_not fun n' name' kind' hn' hdecl' => by
          obtain rfl := Option.some.inj (hnode.symm.trans hn')
          obtain ⟨rfl, rfl⟩ := Prod.mk.inj (Option.some.inj (hdecl.symm.trans hdecl'))
          exact hshadows
      -- each check that fails ends the search without a report
      by_cases hconsiders : r.considers t node kind = true
      · by_cases hfield : r.isField name (inStaticContext t node) = true
        · cases hexempt :
              Exemption.find? r.settings t ⟨node, name, kind, r.scopes.enclosingType?⟩ with
          | none =>
            have hshadows := hiff.mpr ⟨hconsiders, hfield, hexempt⟩
            rw [shadowing?_eq_some.mpr ⟨n, name, kind, hnode, hdecl, hshadows, rfl⟩]
            simp only [declare, hnode, hdecl, hconsiders, hfield, hexempt]
            exact ⟨rfl, rfl, rfl⟩
          | some e =>
            rw [hnone (by simp [hiff, hexempt])]
            simp only [declare, hnode, hdecl, hconsiders, hfield, hexempt]
            exact ⟨rfl, rfl, rfl⟩
        · rw [hnone (by simp [hiff, hfield])]
          simp only [declare, hnode, hdecl, hconsiders, hfield]
          exact ⟨rfl, rfl, rfl⟩
      · rw [hnone (by simp [hiff, hconsiders])]
        simp only [declare, hnode, hdecl, hconsiders]
        exact ⟨rfl, rfl, rfl⟩

/-- At a node with a frame, entering gives the stack of what lies below. -/
theorem finds_enter (r : HiddenFieldRule) {node : Nat} {f : ScopeFrame}
    (hframe : frameAt? t node = some f) :
    (r.enter t node).Finds []
      { r with scopes := { r.scopes with above := f :: r.scopes.above } } := by
  obtain ⟨kind, isStatic, typeName?, hkind, hf, -⟩ := frameAt?_eq_some hframe
  have hbind : (t.kind? node).bind frame? = some (isStatic, typeName?) := by
    rw [hkind, Option.bind_some, hf]
  obtain ⟨f', hframe', henter⟩ := enterScope_eq hbind r.scopes
  obtain rfl : f' = f := Option.some.inj (hframe'.symm.trans hframe)
  simp only [enter, hbind, henter]
  exact ⟨rfl, rfl, rfl⟩

/-- At a node with a frame, leaving takes the topmost frame off. -/
theorem finds_leave (r : HiddenFieldRule) {node : Nat} {f : ScopeFrame}
    (hframe : frameAt? t node = some f) (g : ScopeFrame) :
    ({ r with scopes := { r.scopes with above := g :: r.scopes.above } } : HiddenFieldRule).leave
      t node |>.Finds [] r := by
  obtain ⟨kind, isStatic, typeName?, hkind, hf, -⟩ := frameAt?_eq_some hframe
  unfold leave
  rw [hkind, Option.bind_some, hf]
  exact ⟨rfl, rfl, rfl⟩

/-- Children one after the other are walked with one and the same stack. -/
theorem finds_children {children : List Nat} {r : HiddenFieldRule}
    (h : ∀ c ∈ children, (runAll (step t) r (t.eventsFrom c)).Finds
      ((t.preorder c).filterMap (t.shadowing? r.settings)) r) :
    (runAll (step t) r (children.flatMap t.eventsFrom)).Finds
      ((children.flatMap t.preorder).filterMap (t.shadowing? r.settings)) r := by
  induction children with
  | nil => exact .quiet r
  | cons c children ih =>
    rw [List.flatMap_cons, List.flatMap_cons, List.filterMap_append]
    exact (h c List.mem_cons_self).runAll_append (ih fun d hd => h d (List.mem_cons_of_mem _ hd))

/-- A walk from a node that starts with the stack of the node finds the shadowings from there down,
and ends with the same stack. -/
theorem finds_eventsFrom (h : t.Linked) {node : Nat} (hlt : node < t.size) {r : HiddenFieldRule}
    (hr : r.scopes = scopesAt t node) :
    (runAll (step t) r (t.eventsFrom node)).Finds
      ((t.preorder node).filterMap (t.shadowing? r.settings)) r := by
  induction node using t.below_induction generalizing r with
  | step node ih =>
    obtain ⟨kind, hkind⟩ := exists_kind hlt
    -- below the node the stack has its frame on top, if it has one
    have hbelow : ∀ r' : HiddenFieldRule, r'.scopes =
        { r.scopes with above := (frameAt? t node).elim r.scopes.above (· :: r.scopes.above) } →
        (runAll (step t) r' ((t.children node).flatMap t.eventsFrom)).Finds
          (((t.children node).flatMap t.preorder).filterMap (t.shadowing? r'.settings)) r' := by
      intro r' hr'
      refine finds_children fun c hc => ih c hc (lt_of_mem_children hc).2 ?_
      rw [hr', hr, ← scopesAt_child (h.ancestors_child hc)]
    rw [preorder_eq, eventsFrom_eq hkind]
    cases hframe : frameAt? t node with
    | some f =>
      -- the frame is put on the stack for what lies below and taken off again
      obtain ⟨kind', isStatic, typeName?, hkind', hf, -⟩ := frameAt?_eq_some hframe
      obtain rfl : kind' = kind := Option.some.inj (hkind'.symm.trans hkind)
      have hevents : kind'.eventsAround node ((t.children node).flatMap t.eventsFrom) =
          .enter node :: ((t.children node).flatMap t.eventsFrom ++ [.leave node]) := by
        cases kind' <;> simp_all [frame?, NodeKind.eventsAround]
      have hquiet : t.shadowing? r.settings node = none :=
        shadowing?_eq_none hkind (by cases kind' <;> simp_all [frame?, NodeKind.declares?]) _
      rw [hevents, List.filterMap_cons, hquiet]
      have hinner := hbelow { r with scopes := { r.scopes with above := f :: r.scopes.above } }
        (by rw [hframe]; rfl)
      have hleave : (runAll (step t) _ [.leave node]).Finds ([] ++ []) r :=
        (finds_leave r hframe f).runAll_cons (.quiet r)
      have hwhole : (runAll (step t) r (.enter node :: _)).Finds ([] ++ _) r :=
        (finds_enter r hframe).runAll_cons (hinner.runAll_append hleave)
      simpa using hwhole
    | none =>
      have hinner := hbelow r (by rw [hframe]; rfl)
      cases hdecl : kind.declares? with
      | none =>
        have hevents : kind.eventsAround node ((t.children node).flatMap t.eventsFrom) =
            (t.children node).flatMap t.eventsFrom := by
          have := isSome_frameAt? t node
          cases kind <;>
            simp_all [NodeKind.eventsAround, NodeKind.declares?, NodeKind.holdsFields]
        rw [hevents, List.filterMap_cons, shadowing?_eq_none hkind hdecl]
        exact hinner
      | some declared =>
        have hevents : kind.eventsAround node ((t.children node).flatMap t.eventsFrom) =
            .declaration node :: (t.children node).flatMap t.eventsFrom := by
          cases kind <;> simp_all [NodeKind.eventsAround, NodeKind.declares?]
        have hself : ∀ nodes, (node :: nodes).filterMap (t.shadowing? r.settings) =
            (t.shadowing? r.settings node).toList ++ nodes.filterMap (t.shadowing? r.settings) := by
          intro nodes
          cases hs : t.shadowing? r.settings node <;> simp [hs]
        rw [hevents, hself]
        exact Finds.runAll_cons (finds_declare r hr) hinner

end HiddenFieldRule

/-! ## A whole check -/

namespace Analyzer

open SyntaxTree Outcome

/-- A new analyzer has the one rule. -/
theorem registry_new (config : Config) :
    (new config).registry.rules = [.new config.hiddenField] :=
  rfl

/-- A rule is enabled unless its name is switched off. -/
theorem isEnabled_iff (config : Config) (rule : HiddenFieldRule) :
    isEnabled config rule = true ↔ HiddenFieldRule.id ∉ config.disabledRules := by
  rw [isEnabled, Bool.not_eq_true', ← Bool.not_eq_true, List.contains_iff_mem]
  rfl

/-- A rule that is switched on and is the only one is told of every event. -/
theorem finds_dispatch {config : Config} (hon : HiddenFieldRule.id ∉ config.disabledRules)
    {t : SyntaxTree} {events : List WalkEvent} {r r' : HiddenFieldRule} {found : List Diagnostic}
    (h : (runAll (HiddenFieldRule.step t) r events).Finds found r') :
    (runAll (dispatch config t) [r] events).Finds found [r'] := by
  induction events generalizing r found with
  | nil =>
    obtain ⟨rfl, rfl, -⟩ := h
    exact .quiet _
  | cons e events ih =>
    obtain ⟨hstate, hfound, hfail⟩ := h
    simp only [runAll, Outcome.andThen] at hstate hfound hfail
    cases hstep : (HiddenFieldRule.step t r e).failure? with
    | some error => simp [hstep] at hfail
    | none =>
      simp only [hstep] at hstate hfound hfail
      have hone : (dispatch config t [r] e).Finds (r.step t e).found [(r.step t e).state] := by
        simp only [dispatch, (isEnabled_iff config r).mpr hon, if_true, Outcome.andThen, hstep]
        exact ⟨rfl, List.append_nil _, rfl⟩
      rw [← hfound]
      exact hone.runAll_cons (ih ⟨hstate, rfl, hfail⟩)

/-- A rule that is switched off is told of nothing. -/
theorem finds_dispatch_off {config : Config} (hoff : HiddenFieldRule.id ∈ config.disabledRules)
    (t : SyntaxTree) (events : List WalkEvent) (r : HiddenFieldRule) :
    (runAll (dispatch config t) [r] events).Finds [] [r] := by
  have hdisabled : isEnabled config r = false := by
    rw [← Bool.not_eq_true, isEnabled_iff]
    exact not_not_intro hoff
  induction events with
  | nil => exact .quiet _
  | cons e events ih =>
    have hone : (dispatch config t [r] e).Finds [] [r] := by
      simp only [dispatch, hdisabled]
      exact ⟨rfl, rfl, rfl⟩
    exact hone.runAll_cons ih

/-- A run that goes well gives what it found after grading and limit. -/
theorem result_analyze {a : Analyzer} {t : SyntaxTree} {found : List Diagnostic}
    {rules : List HiddenFieldRule}
    (h : (runAll (dispatch a.config t) (begin a.config a.registry.rules) t.events).Finds found
      rules) : (a.analyze t).result = .ok (a.config.postProcess found) := by
  unfold analyze
  simp only [h.failure_eq, h.found_eq]

/-- The rules of a new analyzer find the shadowings of a tree, if they are switched on, and are as
new afterwards. -/
theorem finds_new {t : SyntaxTree} (ht : t.Linked) (config : Config) :
    (runAll (dispatch config t) (begin config (new config).registry.rules) t.events).Finds
      (if HiddenFieldRule.id ∈ config.disabledRules then []
        else t.shadowings config.hiddenField) (new config).registry.rules := by
  have hbegin : begin config (new config).registry.rules = [.new config.hiddenField] := by
    simp [registry_new, begin, HiddenFieldRule.begin, HiddenFieldRule.new]
  rw [hbegin, registry_new]
  by_cases hoff : HiddenFieldRule.id ∈ config.disabledRules
  · rw [if_pos hoff]
    exact finds_dispatch_off hoff t t.events _
  · rw [if_neg hoff]
    have hwalk := HiddenFieldRule.finds_eventsFrom ht (lt_size_of_kind? ht.kind_root)
      (r := .new config.hiddenField)
      (by simp [HiddenFieldRule.new, HiddenFieldRule.scopesAt, ht.ancestors_root, ScopeStack.new])
    exact finds_dispatch hoff hwalk

/-- What an analyzer makes of a tree: the shadowings, if the rule is switched on, after they have
been graded and cut to the limit. -/
theorem analyze_eq {t : SyntaxTree} (ht : t.Linked) (config : Config) :
    ((new config).analyze t).result = .ok (config.postProcess
      (if HiddenFieldRule.id ∈ config.disabledRules then []
        else t.shadowings config.hiddenField)) :=
  result_analyze (finds_new ht config)

/-- A check that goes well has a tree, and has found what the analysis of the tree finds. -/
theorem check_eq_ok {a : Analyzer} {source : String} {found : List Diagnostic}
    (h : (a.check source).result = .ok found) :
    ∃ t, SyntaxTree.ofSource source = .ok t ∧ (a.analyze t).result = .ok found := by
  rw [check] at h
  unfold SyntaxTree.ofSource Parser.ofScanner
  split at h
  · exact nomatch h
  · next lexemes hlexemes =>
    have htokens : (Scanner.ofSource source).tokens = .ok lexemes := hlexemes
    rw [htokens]
    split at h
    · exact nomatch h
    · next t ht => exact ⟨t, ht, h⟩

/-- On every tree that comes about by adding nodes, an analyzer that neither switches the rule off
nor regrades or limits its findings reports exactly the nodes that hide fields, each once and in the
order of the tree. -/
theorem analyze_eq_shadowings {t : SyntaxTree} (ht : t.Grown) {config : Config}
    (hon : "hidden-field" ∉ config.disabledRules) (hgrade : config.warningAsError = false)
    (hlimit : config.errorLimit? = none) :
    ((new config).analyze t).result = .ok (t.shadowings config.hiddenField) ∧
      (t.preorder root).Nodup ∧ ∀ node, node ∈ t.preorder root ↔ node < t.size := by
  refine ⟨?_, ht.linked.nodup_preorder root, ht.linked.mem_preorder_root⟩
  have hon' : HiddenFieldRule.id ∉ config.disabledRules := hon
  rw [analyze_eq ht.linked, if_neg hon']
  simp [Config.postProcess, Config.regrade, hgrade, hlimit]

/-- A class with an instance field `count` and a static field `limit`, and in it a static method
with parameters of both names. -/
def staticReset : SyntaxTree :=
  let at_ (column : Nat) : Span := .at ⟨1, column⟩
  let int_ : TypeRef := .primitive "int"
  ((((((empty.add 0 (.classDef "Counter" []) (at_ 1)).add 1 .typeBody (at_ 2)).add
    2 (.variableDef "count" [] int_) (at_ 3)).add
    2 (.methodDef "reset" [.static] .void) (at_ 4)).add 4 .parameters (at_ 5)).add
    5 (.parameterDef "count" [] int_) (at_ 6)).add 5 (.parameterDef "limit" [] int_) (at_ 7) |>.add
    2 (.variableDef "limit" [.static] int_) (at_ 8)

/-- From the static method only the static field is seen, so one of the two parameters is reported.
-/
theorem analyze_staticReset :
    staticReset.Grown ∧
      ((new {}).analyze staticReset).result =
        .ok [⟨"hidden-field", .error, "'limit' hides a field.", ["limit"], .at ⟨1, 7⟩⟩] := by
  have hgrown : staticReset.Grown := by
    unfold staticReset
    repeat refine Grown.add _ _ ?_ (by decide +kernel)
    exact .empty
  have hshadowings : staticReset.shadowings {} =
      [⟨"hidden-field", .error, "'limit' hides a field.", ["limit"], .at ⟨1, 7⟩⟩] := by
    decide +kernel
  refine ⟨hgrown, ?_⟩
  rw [← hshadowings]
  exact (@analyze_eq_shadowings _ hgrown {} (by decide) rfl rfl).1

end Analyzer

end FieldShadow
