import FieldShadow.Proofs.HiddenField.Shadowing

/-!
# Calls in any order

A rule can be told of events in any order: of types that are left and were never entered, of nodes
twice, of nodes of other trees. Each call does what it does with the scope stack that it meets
(`RuleState.lawful_tell`), and only leaving a type when no frame is left fails, without a trace.
When a walk begins, whatever was there before is forgotten: from then on nothing can be told from a
new rule (`RuleState.lawful_calls`).

`Told.Lawful` lists what one call does, with a field for each kind of call: what is found, what the
stack is afterwards, and when it fails. A row of calls is a chain of such steps, and what holds of
every step holds along the chain.
-/

namespace FieldShadow

/-- What a rule is told: that a walk begins, or an event in a tree. -/
inductive RuleCall where
  | begin
  | event (t : SyntaxTree) (e : WalkEvent)

namespace RuleCall

/-- Whether a class, enum or enum constant is entered. -/
def entersType : RuleCall → Bool
  | .event t (.enter node) => (t.kind? node).any NodeKind.holdsFields
  | _ => false

/-- Whether a class, enum or enum constant is left. -/
def leavesType : RuleCall → Bool
  | .event t (.leave node) => (t.kind? node).any NodeKind.holdsFields
  | _ => false

/-- Whether a declaration is passed. -/
def passesDeclaration : RuleCall → Bool
  | .event _ (.declaration _) => true
  | _ => false

end RuleCall

/-- What a call leads to. -/
def HiddenFieldRule.tell (r : HiddenFieldRule) : RuleCall → Outcome HiddenFieldRule
  | .begin => .quiet r.begin
  | .event t e => r.step t e

/-- A rule and all that it has reported so far. -/
structure RuleState where
  rule : HiddenFieldRule
  found : List Diagnostic

/-- A call with what was there before and after it, and why it failed if it did. -/
structure Told where
  call : RuleCall
  before : RuleState
  failure? : Option LintError
  after : RuleState

/-- What can be seen of a call: why it failed if it did, how deep the stack is, and what was
reported. -/
def Told.seen (x : Told) : Option LintError × Nat × List Diagnostic :=
  (x.failure?, x.after.rule.scopes.depth, x.after.found.drop x.before.found.length)

namespace RuleState

/-- A rule that has not been told of anything. -/
def new (settings : Settings) : RuleState :=
  ⟨.new settings, []⟩

/-- Tells the rule one thing. -/
def tell (s : RuleState) (call : RuleCall) : Told :=
  let o := s.rule.tell call
  ⟨call, s, o.failure?, ⟨o.state, s.found ++ o.found⟩⟩

/-- Tells the rule one thing after the other. A call that fails does not end the row. -/
def tellAll (s : RuleState) : List RuleCall → List Told
  | [] => []
  | call :: calls =>
    let x := s.tell call
    x :: x.after.tellAll calls

/-- The state after a row of calls. -/
def afterAll (s : RuleState) : List RuleCall → RuleState
  | [] => s
  | call :: calls => (s.tell call).after.afterAll calls

end RuleState

/-! ## What a call does -/

/-- A call does one thing to the rule, and says so if it cannot. -/
structure Told.Lawful (x : Told) : Prop where
  depth_pos : 1 ≤ x.before.rule.scopes.depth ∧ 1 ≤ x.after.rule.scopes.depth
  settings_eq : x.after.rule.settings = x.before.rule.settings
  failure_eq : x.failure? =
    if x.call.leavesType ∧ x.before.rule.scopes.depth = 1 then some .unbalancedScope else none
  of_failure : x.failure? ≠ none → x.after = x.before
  of_begin : x.call = .begin → x.after.rule.scopes = .new
  of_enter : x.call.entersType → ∃ f, x.after.rule.scopes.pop? = some (f, x.before.rule.scopes)
  of_leave : x.call.leavesType → x.failure? = none →
    ∃ f, x.before.rule.scopes.pop? = some (f, x.after.rule.scopes)
  of_other : x.call ≠ .begin → ¬ x.call.entersType → ¬ x.call.leavesType →
    x.after.rule.scopes = x.before.rule.scopes
  found_eq : x.after.found = x.before.found ∨
    x.call.passesDeclaration ∧ ∃ d, x.after.found = x.before.found ++ [d]

namespace HiddenFieldRule

open SyntaxTree Outcome

variable {t : SyntaxTree} {node : Nat}

/-- A node that holds no fields has no frame. -/
theorem frame?_eq_none (h : ¬ (t.kind? node).any NodeKind.holdsFields) :
    (t.kind? node).bind frame? = none := by
  have hnone : frameAt? t node = none := by
    rw [← isSome_frameAt?] at h
    exact Option.not_isSome_iff_eq_none.mp h
  exact Option.map_eq_none_iff.mp hnone

/-- One that holds fields has one in its tree. -/
theorem exists_frameAt? (h : (t.kind? node).any NodeKind.holdsFields) :
    ∃ f, frameAt? t node = some f :=
  Option.isSome_iff_exists.mp ((isSome_frameAt? t node).mpr h)

theorem exists_frame?_eq (h : (t.kind? node).any NodeKind.holdsFields) :
    ∃ isStatic typeName?, (t.kind? node).bind frame? = some (isStatic, typeName?) := by
  obtain ⟨f, hframe⟩ := exists_frameAt? h
  obtain ⟨kind, isStatic, typeName?, hkind, hf, -⟩ := frameAt?_eq_some hframe
  exact ⟨isStatic, typeName?, by rw [hkind, Option.bind_some, hf]⟩

/-- With only the frame of the compilation unit no type can be left. -/
theorem leave_of_pop?_none (h : (t.kind? node).any NodeKind.holdsFields) {r : HiddenFieldRule}
    (hpop : r.scopes.pop? = none) :
    r.leave t node = ⟨r, [], [], some .unbalancedScope⟩ := by
  obtain ⟨isStatic, typeName?, hbind⟩ := exists_frame?_eq h
  simp only [leave, hbind, hpop, quiet]

theorem finds_leave_of_pop? (h : (t.kind? node).any NodeKind.holdsFields) {r : HiddenFieldRule}
    {f : ScopeFrame} {scopes : ScopeStack} (hpop : r.scopes.pop? = some (f, scopes)) :
    (r.leave t node).Finds [] { r with scopes } := by
  obtain ⟨isStatic, typeName?, hbind⟩ := exists_frame?_eq h
  simp only [leave, hbind, hpop]
  exact ⟨rfl, rfl, rfl⟩

/-- Entering a node without fields does nothing. -/
theorem enter_of_not (h : ¬ (t.kind? node).any NodeKind.holdsFields) (r : HiddenFieldRule) :
    r.enter t node = .quiet r := by
  rw [enter, frame?_eq_none h]

theorem leave_of_not (h : ¬ (t.kind? node).any NodeKind.holdsFields) (r : HiddenFieldRule) :
    r.leave t node = .quiet r := by
  rw [leave, frame?_eq_none h]

/-- Whatever the stack is, a declaration leaves the rule as it is and is reported at most once. -/
theorem exists_finds_declare (r : HiddenFieldRule) (t : SyntaxTree) (node : Nat) :
    ∃ found? : Option Diagnostic, (r.declare t node).Finds found?.toList r := by
  unfold declare
  split
  · exact ⟨none, .quiet r⟩
  · split
    · exact ⟨none, .quiet r⟩
    · dsimp only
      split
      · exact ⟨none, .quiet r⟩
      · split
        · exact ⟨none, rfl, rfl, rfl⟩
        · split
          · exact ⟨none, rfl, rfl, rfl⟩
          · exact ⟨some _, rfl, rfl, rfl⟩

end HiddenFieldRule

namespace ScopeStack

/-- A stack is never empty: the frame of the unit stays. -/
theorem depth_pos (s : ScopeStack) : 1 ≤ s.depth :=
  Nat.le_add_left 1 s.above.length

/-- A stack has one frame exactly if none can be popped. -/
theorem depth_eq_one_iff {s : ScopeStack} : s.depth = 1 ↔ s.pop? = none := by
  rw [pop?_eq_none_iff, depth]
  simp

end ScopeStack

namespace RuleState

open HiddenFieldRule Outcome

/-- A call that goes well leads to the state that it leads the rule to, with what it found behind
what was found before. -/
theorem tell_eq_of_finds {s : RuleState} {call : RuleCall} {found : List Diagnostic}
    {r : HiddenFieldRule} (h : (s.rule.tell call).Finds found r) :
    s.tell call = ⟨call, s, none, ⟨r, s.found ++ found⟩⟩ := by
  obtain ⟨hstate, hfound, hfailure⟩ := h
  rw [tell, hstate, hfound, hfailure]

/-- A rule that is begun has forgotten its scopes, and keeps its settings and what was found. -/
theorem tell_begin (s : RuleState) :
    s.tell .begin = ⟨.begin, s, none, ⟨.new s.rule.settings, s.found⟩⟩ := by
  have hfinds : (s.rule.tell .begin).Finds [] s.rule.begin := .quiet _
  rw [tell_eq_of_finds hfinds, List.append_nil]
  rfl

/-- So beginning keeps its law in any state. -/
theorem lawful_begin (s : RuleState) : (s.tell .begin).Lawful := by
  rw [tell_begin]
  exact {
    depth_pos := ⟨s.rule.scopes.depth_pos, Nat.le_refl 1⟩
    settings_eq := rfl
    failure_eq := by simp [RuleCall.leavesType]
    of_failure := absurd rfl
    of_begin := fun _ => rfl
    of_enter := nofun
    of_leave := nofun
    of_other := absurd rfl
    found_eq := .inl rfl }

/-- A call that finds at most one thing and leaves the rule as it is, if it neither enters nor
leaves a type. -/
theorem lawful_of_finds {s : RuleState} {t : SyntaxTree} {e : WalkEvent}
    {found? : Option Diagnostic} (h : (s.rule.tell (.event t e)).Finds found?.toList s.rule)
    (henter : ¬ (RuleCall.event t e).entersType) (hleave : ¬ (RuleCall.event t e).leavesType)
    (hfound : found?.isSome → (RuleCall.event t e).passesDeclaration) :
    (s.tell (.event t e)).Lawful := by
  rw [tell_eq_of_finds h]
  exact {
    depth_pos := ⟨s.rule.scopes.depth_pos, s.rule.scopes.depth_pos⟩
    settings_eq := rfl
    failure_eq := (if_neg fun h => hleave h.1).symm
    of_failure := absurd rfl
    of_begin := nofun
    of_enter := fun h => absurd h henter
    of_leave := fun h => absurd h hleave
    of_other := fun _ _ _ => rfl
    found_eq := by
      cases found? with
      | none => exact .inl (List.append_nil _)
      | some d => exact .inr ⟨hfound rfl, d, rfl⟩ }

/-- Entering keeps its law: a frame is pushed with the fields of the body, or nothing happens. -/
theorem lawful_enter (s : RuleState) (t : SyntaxTree) (node : Nat) :
    (s.tell (.event t (.enter node))).Lawful := by
  by_cases h : (t.kind? node).any NodeKind.holdsFields = true
  · obtain ⟨f, hframe⟩ := exists_frameAt? h
    have hfinds : (s.rule.tell (.event t (.enter node))).Finds [] _ := finds_enter s.rule hframe
    rw [tell_eq_of_finds hfinds]
    exact {
      depth_pos := ⟨s.rule.scopes.depth_pos, ScopeStack.depth_pos _⟩
      settings_eq := rfl
      failure_eq := by simp [RuleCall.leavesType]
      of_failure := absurd rfl
      of_begin := nofun
      of_enter := fun _ => ⟨f, rfl⟩
      of_leave := nofun
      of_other := fun _ henter => absurd h henter
      found_eq := .inl (List.append_nil _) }
  · -- a node that holds no fields is entered without a change
    have hfinds :
        (s.rule.tell (.event t (.enter node))).Finds (none : Option _).toList s.rule := by
      rw [HiddenFieldRule.tell, step, enter_of_not h]
      exact .quiet s.rule
    exact lawful_of_finds hfinds h nofun nofun

/-- Leaving keeps its law, also on a stack with nothing to pop, where it fails and changes nothing.
-/
theorem lawful_leave (s : RuleState) (t : SyntaxTree) (node : Nat) :
    (s.tell (.event t (.leave node))).Lawful := by
  by_cases h : (t.kind? node).any NodeKind.holdsFields = true
  · have hleave : RuleCall.leavesType (.event t (.leave node)) = true := h
    -- leaving a type pops a frame, and fails when only the outermost scope is left
    cases hpop : s.rule.scopes.pop? with
    | none =>
      have htell : s.tell (.event t (.leave node)) =
          ⟨.event t (.leave node), s, some .unbalancedScope, s⟩ := by
        simp [tell, HiddenFieldRule.tell, step, leave_of_pop?_none h hpop]
      rw [htell]
      exact {
        depth_pos := ⟨s.rule.scopes.depth_pos, s.rule.scopes.depth_pos⟩
        settings_eq := rfl
        failure_eq := (if_pos ⟨hleave, ScopeStack.depth_eq_one_iff.mpr hpop⟩).symm
        of_failure := fun _ => rfl
        of_begin := nofun
        of_enter := nofun
        of_leave := nofun
        of_other := fun _ _ h => absurd hleave h
        found_eq := .inl rfl }
    | some popped =>
      obtain ⟨f, scopes⟩ := popped
      have hfinds : (s.rule.tell (.event t (.leave node))).Finds [] { s.rule with scopes } :=
        finds_leave_of_pop? h hpop
      have hdepth : s.rule.scopes.depth ≠ 1 := by
        rw [Ne, ScopeStack.depth_eq_one_iff, hpop]
        exact nofun
      rw [tell_eq_of_finds hfinds]
      exact {
        depth_pos := ⟨s.rule.scopes.depth_pos, scopes.depth_pos⟩
        settings_eq := rfl
        failure_eq := (if_neg fun h => hdepth h.2).symm
        of_failure := absurd rfl
        of_begin := nofun
        of_enter := nofun
        of_leave := fun _ _ => ⟨f, hpop⟩
        of_other := fun _ _ h => absurd hleave h
        found_eq := .inl (List.append_nil _) }
  · have hfinds :
        (s.rule.tell (.event t (.leave node))).Finds (none : Option _).toList s.rule := by
      rw [HiddenFieldRule.tell, step, leave_of_not h]
      exact .quiet s.rule
    exact lawful_of_finds hfinds nofun h nofun

/-- A declaration keeps its law: at most one report is added, and the scopes stay. -/
theorem lawful_declaration (s : RuleState) (t : SyntaxTree) (node : Nat) :
    (s.tell (.event t (.declaration node))).Lawful := by
  obtain ⟨found?, hfinds⟩ := exists_finds_declare s.rule t node
  exact lawful_of_finds hfinds nofun nofun fun _ => rfl

/-- Every call is lawful, whatever was told before. -/
theorem lawful_tell (s : RuleState) (call : RuleCall) : (s.tell call).Lawful := by
  rcases call with _ | ⟨t, node | node | node⟩
  · exact s.lawful_begin
  · exact s.lawful_enter t node
  · exact s.lawful_leave t node
  · exact s.lawful_declaration t node

/-! ## Rows of calls -/

/-- Every call of a row keeps its law, whatever came before. -/
theorem lawful_of_mem_tellAll {s : RuleState} {calls : List RuleCall} {x : Told}
    (h : x ∈ s.tellAll calls) : x.Lawful := by
  induction calls generalizing s with
  | nil => exact absurd h List.not_mem_nil
  | cons call calls ih =>
    rcases List.mem_cons.mp h with rfl | h
    · exact s.lawful_tell call
    · exact ih h

/-- Each call is told once. -/
theorem length_tellAll (s : RuleState) (calls : List RuleCall) :
    (s.tellAll calls).length = calls.length := by
  induction calls generalizing s with
  | nil => rfl
  | cons call calls ih => rw [tellAll, List.length_cons, ih, List.length_cons]

/-- Later calls are told from where the earlier ones ended. -/
theorem tellAll_append (s : RuleState) (calls later : List RuleCall) :
    s.tellAll (calls ++ later) = s.tellAll calls ++ (s.afterAll calls).tellAll later := by
  induction calls generalizing s with
  | nil => rfl
  | cons call calls ih => rw [List.cons_append, tellAll, ih, tellAll, afterAll, List.cons_append]

/-- No call changes the settings. -/
theorem settings_afterAll (s : RuleState) (calls : List RuleCall) :
    (s.afterAll calls).rule.settings = s.rule.settings := by
  induction calls generalizing s with
  | nil => rfl
  | cons call calls ih => rw [afterAll, ih, (s.lawful_tell call).settings_eq]; rfl

/-- What is seen of a call is what the rule makes of it. -/
theorem seen_tell (s : RuleState) (call : RuleCall) :
    (s.tell call).seen =
      ((s.rule.tell call).failure?, (s.rule.tell call).state.scopes.depth,
        (s.rule.tell call).found) := by
  simp [Told.seen, tell]

/-- What was found before has no influence on what is seen. -/
theorem map_seen_tellAll (r : HiddenFieldRule) (found found' : List Diagnostic)
    (calls : List RuleCall) :
    ((mk r found).tellAll calls).map Told.seen = ((mk r found').tellAll calls).map Told.seen := by
  induction calls generalizing r found found' with
  | nil => rfl
  | cons call calls ih =>
    rw [tellAll, tellAll, List.map_cons, List.map_cons, seen_tell, seen_tell]
    exact congrArg _ (ih _ _ _)

/-- Whatever a new rule is told in whatever order, each call does its one thing and fails only if
a type is left while no frame is there. When a walk begins after that, what is seen of all later
calls is what is seen of them with a new rule. -/
theorem lawful_calls (settings : Settings) (calls later : List RuleCall) :
    (∀ x ∈ (new settings).tellAll calls, x.Lawful) ∧
      (((new settings).tellAll (calls ++ .begin :: later)).drop (calls.length + 1)).map Told.seen =
        ((new settings).tellAll later).map Told.seen := by
  refine ⟨fun x hx => lawful_of_mem_tellAll hx, ?_⟩
  have hdrop : ((new settings).tellAll (calls ++ .begin :: later)).drop (calls.length + 1) =
      (RuleState.mk (.new settings) ((new settings).afterAll calls).found).tellAll later := by
    rw [tellAll_append, tellAll, tell_begin, settings_afterAll,
      ← length_tellAll (new settings) calls, List.drop_length_add_append]
    rfl
  rw [hdrop]
  exact map_seen_tellAll _ _ _ later

/-- A class that is left before it was entered, entered twice, and left after a new beginning. -/
example :
    let t := SyntaxTree.empty.add 0 (.classDef "A" []) (.at ⟨1, 1⟩)
    ((new {}).tellAll [.event t (.leave 1), .event t (.enter 1), .event t (.enter 1), .begin,
        .event t (.leave 1)]).map Told.seen =
      [(some .unbalancedScope, 1, []), (none, 2, []), (none, 3, []), (none, 1, []),
        (some .unbalancedScope, 1, [])] := by
  decide +kernel

end RuleState

end FieldShadow
