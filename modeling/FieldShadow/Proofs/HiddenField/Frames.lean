import FieldShadow.HiddenField.Rule
import FieldShadow.Proofs.SyntaxTree.Growth

/-!
# The frames around a node

The scope stack that a walk has built when it reaches a node is a function of the chain above that
node (`scopesAt`): one frame for each class, enum and enum constant on it, with the fields that its
body declares. So looking a name up on the stack is looking for a type above the node
(`hasStatic_scopesAt`, `hasInstance_scopesAt`, `enclosingType?_scopesAt`).

A frame keeps only names, apart by `static`, and of a type the innermost frame that declares a name
decides. Looking up is therefore a search in a list, and the two lists that are searched, the frames
of the stack and the nodes above, differ in the nodes that have no frame; those are passed over in
both (`exists_in_view_cons`).
-/

namespace FieldShadow

/-- The field that a member of a type body declares, with whether it is static. -/
def NodeKind.field? : NodeKind → Option (String × Bool)
  | .variableDef name ms _ => some (name, ms.contains .static)
  | _ => none

/-- Whether a node of this kind is a static nested class. -/
def NodeKind.isStaticClass : NodeKind → Bool
  | .classDef _ ms => ms.contains .static
  | _ => false

/-- The name of a class; other types do not give theirs. -/
def NodeKind.className? : NodeKind → Option String
  | .classDef name _ => some name
  | _ => none

/-- Whether a node of this kind is a type whose body is searched for fields. -/
def NodeKind.holdsFields : NodeKind → Bool
  | .classDef .. | .enumDef .. | .enumConstant _ => true
  | _ => false

namespace SyntaxTree

variable {t : SyntaxTree}

/-- The fields that the body of a type declares directly, in their order. -/
def fields (t : SyntaxTree) (type : Nat) : List (String × Bool) :=
  match t.typeBody? type with
  | none => []
  | some body => (t.children body).filterMap fun c => (t.kind? c).bind NodeKind.field?

/-- Whether a node is a class, enum or enum constant whose body declares the field directly. -/
def DeclaresField (t : SyntaxTree) (type : Nat) (name : String) (isStatic : Bool) : Prop :=
  (t.kind? type).any NodeKind.holdsFields ∧ (name, isStatic) ∈ t.fields type

/-- Whether a node is a static nested class. -/
def IsStaticClass (t : SyntaxTree) (type : Nat) : Prop :=
  (t.kind? type).any NodeKind.isStaticClass

instance (type : Nat) (name : String) (isStatic : Bool) :
    Decidable (t.DeclaresField type name isStatic) :=
  inferInstanceAs (Decidable (_ ∧ _))

instance (type : Nat) : Decidable (t.IsStaticClass type) :=
  inferInstanceAs (Decidable (_ = true))

/-- Whether a type around a node declares a static field of this name. -/
def SeesStatic (t : SyntaxTree) (node : Nat) (name : String) : Prop :=
  ∃ type ∈ t.ancestors node, t.DeclaresField type name true

/-- Whether a type around a node declares an instance field of this name, and there is no static
nested class between the two. -/
def SeesInstance (t : SyntaxTree) (node : Nat) (name : String) : Prop :=
  ∃ type ∈ t.ancestors node, t.DeclaresField type name false ∧
    ∀ between ∈ t.ancestors node, type ∈ t.ancestors between → ¬ t.IsStaticClass between

/-- The name of the nearest class around a node. -/
def enclosingClass? (t : SyntaxTree) (node : Nat) : Option String :=
  (t.ancestorKinds node).findSome? NodeKind.className?

instance (node : Nat) (name : String) : Decidable (t.SeesStatic node name) :=
  inferInstanceAs (Decidable (∃ type ∈ _, _))

instance (node : Nat) (name : String) : Decidable (t.SeesInstance node name) :=
  inferInstanceAs (Decidable (∃ type ∈ _, _))

end SyntaxTree

namespace ScopeFrame

/-- Adds a field to a frame. -/
def addField (f : ScopeFrame) (field : String × Bool) : ScopeFrame :=
  if field.2 then f.addStatic field.1 else f.addInstance field.1

@[simp] theorem isStatic_addField (f : ScopeFrame) (field : String × Bool) :
    (f.addField field).isStatic = f.isStatic := by
  unfold addField
  split <;> rfl

@[simp] theorem typeName?_addField (f : ScopeFrame) (field : String × Bool) :
    (f.addField field).typeName? = f.typeName? := by
  unfold addField
  split <;> rfl

/-- Fields do not make a frame static. -/
theorem isStatic_foldl_addField (fields : List (String × Bool)) (f : ScopeFrame) :
    (fields.foldl addField f).isStatic = f.isStatic := by
  induction fields generalizing f with
  | nil => rfl
  | cons field fields ih => rw [List.foldl_cons, ih, isStatic_addField]

theorem typeName?_foldl_addField (fields : List (String × Bool)) (f : ScopeFrame) :
    (fields.foldl addField f).typeName? = f.typeName? := by
  induction fields generalizing f with
  | nil => rfl
  | cons field fields ih => rw [List.foldl_cons, ih, typeName?_addField]

/-- The static fields of a filled frame are those that were put in and those it had. -/
theorem mem_staticFields_foldl_addField (fields : List (String × Bool)) (f : ScopeFrame)
    (name : String) :
    name ∈ (fields.foldl addField f).staticFields ↔
      (name, true) ∈ fields ∨ name ∈ f.staticFields := by
  induction fields generalizing f with
  | nil => simp
  | cons field fields ih =>
    rw [List.foldl_cons, ih]
    obtain ⟨other, isStatic⟩ := field
    cases isStatic with
    | true =>
      show _ ∨ name ∈ insertName other f.staticFields ↔ _
      rw [mem_insertName, List.mem_cons]
      grind
    | false =>
      show _ ∨ name ∈ f.staticFields ↔ _
      simp

theorem mem_instanceFields_foldl_addField (fields : List (String × Bool)) (f : ScopeFrame)
    (name : String) :
    name ∈ (fields.foldl addField f).instanceFields ↔
      (name, false) ∈ fields ∨ name ∈ f.instanceFields := by
  induction fields generalizing f with
  | nil => simp
  | cons field fields ih =>
    rw [List.foldl_cons, ih]
    obtain ⟨other, isStatic⟩ := field
    cases isStatic with
    | true =>
      show _ ∨ name ∈ f.instanceFields ↔ _
      simp
    | false =>
      show _ ∨ name ∈ insertName other f.instanceFields ↔ _
      rw [mem_insertName, List.mem_cons]
      grind

end ScopeFrame

namespace HiddenFieldRule

open SyntaxTree

variable {t : SyntaxTree}

/-- The frame of a type: it has the fields that the body of the type declares. -/
def frameAt? (t : SyntaxTree) (type : Nat) : Option ScopeFrame :=
  ((t.kind? type).bind frame?).map fun (isStatic, typeName?) =>
    (t.fields type).foldl .addField (.new isStatic typeName?)

/-- The scope stack at a node: a frame for each class, enum and enum constant above it. -/
def scopesAt (t : SyntaxTree) (node : Nat) : ScopeStack :=
  { ScopeStack.new with above := (t.ancestors node).filterMap (frameAt? t) }

/-! ## Entering a type -/

/-- What is harvested goes into the frame on top, the others stay. -/
theorem harvest_top (s : ScopeStack) (f : ScopeFrame) (kind : NodeKind) :
    harvest { s with above := f :: s.above } (s.above.length + 1) kind =
      { s with above := kind.field?.elim f f.addField :: s.above } := by
  cases kind with
  | variableDef name ms type =>
    cases h : ms.contains .static <;>
      simp [harvest, NodeKind.field?, h, ScopeStack.addStatic, ScopeStack.addInstance,
        ScopeStack.modify, ScopeFrame.addField, -List.contains_eq_mem]
  | _ => rfl

/-- Entering a type puts its frame on the stack and leaves the rest of the stack alone. -/
theorem enterScope_eq {type : Nat} {isStatic : Bool} {typeName? : Option String}
    (h : (t.kind? type).bind frame? = some (isStatic, typeName?)) (s : ScopeStack) :
    ∃ f, frameAt? t type = some f ∧
      enterScope s t type isStatic typeName? = { s with above := f :: s.above } := by
  refine ⟨_, by rw [frameAt?, h, Option.map_some], ?_⟩
  -- the frame is on top while the fields are put in, so its index stays the same
  have hfold : ∀ (kinds : List NodeKind) (f : ScopeFrame),
      kinds.foldl (fun s kind => harvest s s.top kind) { s with above := f :: s.above } =
        { s with above := (kinds.filterMap NodeKind.field?).foldl .addField f :: s.above } := by
    intro kinds
    induction kinds with
    | nil => exact fun f => rfl
    | cons kind kinds ih =>
      intro f
      rw [List.foldl_cons, ScopeStack.top, List.length_cons, harvest_top, ih]
      cases hk : kind.field? <;> simp [hk]
  unfold enterScope SyntaxTree.fields
  cases hbody : t.typeBody? type with
  | none => rfl
  | some body =>
    simp only [ScopeStack.push]
    rw [hfold, List.filterMap_filterMap]

/-- Below a type its frame, if it has one, lies on the stack of the type. -/
theorem scopesAt_child {type child : Nat} (h : t.ancestors child = type :: t.ancestors type) :
    scopesAt t child =
      { scopesAt t type with
        above :=
          (frameAt? t type).elim (scopesAt t type).above (· :: (scopesAt t type).above) } := by
  unfold scopesAt
  rw [h, List.filterMap_cons]
  cases frameAt? t type <;> rfl

/-! ## The frame of one type -/

/-- The kinds that hold fields are those that have a frame. -/
theorem holdsFields_iff_frame? (kind : NodeKind) :
    kind.holdsFields = true ↔ (frame? kind).isSome = true := by
  cases kind <;> simp [NodeKind.holdsFields, frame?]

theorem isSome_frameAt? (t : SyntaxTree) (type : Nat) :
    (frameAt? t type).isSome = true ↔ (t.kind? type).any NodeKind.holdsFields = true := by
  cases h : t.kind? type with
  | none => simp [frameAt?, h]
  | some kind => simp [frameAt?, h, holdsFields_iff_frame?]

/-- A frame is made by the kind of its type and filled with the fields of the body. -/
theorem frameAt?_eq_some {type : Nat} {f : ScopeFrame} (h : frameAt? t type = some f) :
    ∃ kind isStatic typeName?, t.kind? type = some kind ∧
      frame? kind = some (isStatic, typeName?) ∧
      f = (t.fields type).foldl .addField (.new isStatic typeName?) := by
  obtain ⟨⟨isStatic, typeName?⟩, hkind, rfl⟩ := Option.map_eq_some_iff.mp h
  obtain ⟨kind, hk, hframe⟩ := Option.bind_eq_some_iff.mp hkind
  exact ⟨kind, isStatic, typeName?, hk, hframe, rfl⟩

/-- The static fields of a frame are those that its type declares. -/
theorem mem_staticFields_frameAt? {type : Nat} {f : ScopeFrame} (h : frameAt? t type = some f)
    (name : String) : name ∈ f.staticFields ↔ t.DeclaresField type name true := by
  have hsome := (isSome_frameAt? t type).mp (by rw [h]; rfl)
  obtain ⟨_, _, _, -, -, rfl⟩ := frameAt?_eq_some h
  rw [ScopeFrame.mem_staticFields_foldl_addField]
  simp [DeclaresField, hsome, ScopeFrame.new]

theorem mem_instanceFields_frameAt? {type : Nat} {f : ScopeFrame} (h : frameAt? t type = some f)
    (name : String) : name ∈ f.instanceFields ↔ t.DeclaresField type name false := by
  have hsome := (isSome_frameAt? t type).mp (by rw [h]; rfl)
  obtain ⟨_, _, _, -, -, rfl⟩ := frameAt?_eq_some h
  rw [ScopeFrame.mem_instanceFields_foldl_addField]
  simp [DeclaresField, hsome, ScopeFrame.new]

/-- A frame is static exactly if its type is a static class. -/
theorem isStatic_frameAt? {type : Nat} {f : ScopeFrame} (h : frameAt? t type = some f) :
    f.isStatic = true ↔ t.IsStaticClass type := by
  obtain ⟨kind, isStatic, typeName?, hkind, hframe, rfl⟩ := frameAt?_eq_some h
  rw [ScopeFrame.isStatic_foldl_addField, IsStaticClass, hkind]
  cases kind <;> simp_all [frame?, ScopeFrame.new, NodeKind.isStaticClass]

/-- A frame has the name of its type if that is a class. -/
theorem typeName?_frameAt? {type : Nat} {f : ScopeFrame} (h : frameAt? t type = some f) :
    f.typeName? = (t.kind? type).bind NodeKind.className? := by
  obtain ⟨kind, isStatic, typeName?, hkind, hframe, rfl⟩ := frameAt?_eq_some h
  rw [ScopeFrame.typeName?_foldl_addField, hkind]
  cases kind <;> simp_all [frame?, ScopeFrame.new, NodeKind.className?]

/-- A node without a frame is neither a class nor any other type with fields. -/
theorem not_isStaticClass_of_frameAt?_none {type : Nat} (h : frameAt? t type = none) :
    ¬ t.IsStaticClass type := by
  intro hstatic
  have hnone : (t.kind? type).any NodeKind.holdsFields = false := by
    rw [← Bool.not_eq_true, ← isSome_frameAt?, h]
    exact Bool.false_ne_true
  cases hkind : t.kind? type with
  | none => simp [IsStaticClass, hkind] at hstatic
  | some kind =>
    cases kind <;> simp_all [IsStaticClass, NodeKind.isStaticClass, NodeKind.holdsFields]

/-! ## Looking names up -/

/-- The frames at a node are those of the types above it. -/
theorem mem_above_scopesAt {node : Nat} {f : ScopeFrame} :
    f ∈ (scopesAt t node).above ↔ ∃ type ∈ t.ancestors node, frameAt? t type = some f :=
  List.mem_filterMap

/-- The stack has a static field of a name iff a type around the node declares one. -/
theorem hasStatic_scopesAt (t : SyntaxTree) (node : Nat) (name : String) :
    (scopesAt t node).hasStatic name = true ↔ t.SeesStatic node name := by
  have hbase : name ∉ (scopesAt t node).base.staticFields := List.not_mem_nil
  simp only [ScopeStack.hasStatic, ScopeStack.chain, List.any_append, List.any_cons, List.any_nil,
    Bool.or_false, Bool.or_eq_true, List.any_eq_true, List.contains_iff_mem, hbase, or_false]
  constructor
  · rintro ⟨f, hf, hname⟩
    obtain ⟨type, hmem, hframe⟩ := mem_above_scopesAt.mp hf
    exact ⟨type, hmem, (mem_staticFields_frameAt? hframe name).mp hname⟩
  · rintro ⟨type, hmem, hdecl⟩
    obtain ⟨f, hframe⟩ := Option.isSome_iff_exists.mp ((isSome_frameAt? t type).mpr hdecl.1)
    exact ⟨f, mem_above_scopesAt.mpr ⟨type, hmem, hframe⟩,
      (mem_staticFields_frameAt? hframe name).mpr hdecl⟩

/-- In a list there is something wanted before anything that blocks the view iff the head is
wanted, or does not block the view of the tail. -/
theorem exists_in_view_cons {α : Type} {Wanted Blocks : α → Prop} (a : α) (as : List α) :
    (∃ inner b outer, a :: as = inner ++ b :: outer ∧ Wanted b ∧ ∀ c ∈ inner, ¬ Blocks c) ↔
      Wanted a ∨ ¬ Blocks a ∧
        ∃ inner b outer, as = inner ++ b :: outer ∧ Wanted b ∧ ∀ c ∈ inner, ¬ Blocks c := by
  constructor
  · rintro ⟨inner, b, outer, heq, hb, hinner⟩
    -- the one wanted is the first, or lies behind a first one that does not block
    cases inner with
    | nil =>
      rw [List.nil_append, List.cons.injEq] at heq
      exact .inl (heq.1 ▸ hb)
    | cons c inner =>
      rw [List.cons_append, List.cons.injEq] at heq
      obtain ⟨rfl, heq⟩ := heq
      exact .inr ⟨hinner a List.mem_cons_self, inner, b, outer, heq, hb,
        fun c hc => hinner c (List.mem_cons_of_mem _ hc)⟩
  · rintro (ha | ⟨ha, inner, b, outer, rfl, hb, hinner⟩)
    · exact ⟨[], a, as, rfl, ha, by simp⟩
    · refine ⟨a :: inner, b, outer, rfl, hb, ?_⟩
      intro c hc
      rcases List.mem_cons.mp hc with rfl | hc
      · exact ha
      · exact hinner c hc

/-- On the frames of a chain of nodes an instance field is seen from the first frame on up to the
first static one. -/
theorem any_instanceChain_iff (ids : List Nat) (base : ScopeFrame) (name : String)
    (hbase : name ∉ base.instanceFields) :
    (ScopeStack.instanceChain (ids.filterMap (frameAt? t) ++ [base])).any
        (fun f => f.instanceFields.contains name) = true ↔
      ∃ inner type outer, ids = inner ++ type :: outer ∧ t.DeclaresField type name false ∧
        ∀ between ∈ inner, ¬ t.IsStaticClass between := by
  induction ids with
  | nil => simp [ScopeStack.instanceChain, hbase]
  | cons id ids ih =>
    rw [exists_in_view_cons, ← ih]
    cases hframe : frameAt? t id with
    | none =>
      have hstatic := not_isStaticClass_of_frameAt?_none hframe
      -- such a node neither declares fields nor hides those around it
      have hdecl : ¬ t.DeclaresField id name false := by
        intro hdecl
        have := (isSome_frameAt? t id).mpr hdecl.1
        simp [hframe] at this
      simp [hframe, hstatic, hdecl]
    | some f =>
      rw [List.filterMap_cons, hframe, List.cons_append, ScopeStack.instanceChain]
      simp only [← mem_instanceFields_frameAt? hframe, ← isStatic_frameAt? hframe]
      by_cases hstatic : f.isStatic = true <;> simp [hstatic]

/-- The stack has an instance field of a name iff a type around the node declares one and no static
nested class stands between. -/
theorem hasInstance_scopesAt (t : SyntaxTree) (node : Nat) (name : String) :
    (scopesAt t node).hasInstance name = true ↔ t.SeesInstance node name := by
  unfold ScopeStack.hasInstance ScopeStack.chain scopesAt
  rw [any_instanceChain_iff _ _ _ (show name ∉ [] from List.not_mem_nil)]
  constructor
  · rintro ⟨inner, type, outer, heq, hdecl, hinner⟩
    refine ⟨type, by simp [heq], hdecl, ?_⟩
    -- of the nodes above, those below the type are the ones in front of it
    intro between hmem habove
    have hlt := lt_of_mem_ancestors habove
    have hsorted := sorted_ancestors t node
    rw [heq, List.pairwise_append] at hsorted
    rw [heq] at hmem
    rcases List.mem_append.mp hmem with hmem | hmem
    · exact hinner between hmem
    · rcases List.mem_cons.mp hmem with rfl | hmem
      · omega
      · have := (List.pairwise_cons.mp hsorted.2.1).1 between hmem
        omega
  · rintro ⟨type, hmem, hdecl, hbetween⟩
    obtain ⟨inner, heq, hinner⟩ := ancestors_eq_append hmem
    refine ⟨inner, type, t.ancestors type, heq, hdecl, ?_⟩
    exact fun between hb => hbetween between (by simp [heq, hb]) (hinner between hb)

/-- The name that the stack knows is that of the nearest class around the node. -/
theorem enclosingType?_scopesAt (t : SyntaxTree) (node : Nat) :
    (scopesAt t node).enclosingType? = t.enclosingClass? node := by
  unfold ScopeStack.enclosingType? ScopeStack.chain scopesAt SyntaxTree.enclosingClass?
  unfold ancestorKinds
  induction t.ancestors node with
  | nil => rfl
  | cons id ids ih =>
    rw [List.filterMap_cons, List.filterMap_cons]
    cases hkind : t.kind? id with
    | none =>
      have hframe : frameAt? t id = none := by simp [frameAt?, hkind]
      rw [hframe]
      exact ih
    | some kind =>
      -- a node without a frame names no class, so neither list sees it
      cases hframe : frameAt? t id with
      | none =>
        have hclass : kind.className? = none := by
          have := isSome_frameAt? t id
          cases kind <;> simp_all [NodeKind.className?, NodeKind.holdsFields]
        rw [List.findSome?_cons, hclass]
        exact ih
      | some f =>
        rw [List.cons_append, List.findSome?_cons, List.findSome?_cons, typeName?_frameAt? hframe,
          hkind, Option.bind_some]
        cases kind.className? with
        | none => exact ih
        | some name => rfl

end HiddenFieldRule

end FieldShadow
