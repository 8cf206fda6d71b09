import FieldShadow.HiddenField.Exemption
import FieldShadow.Proofs.HiddenField.Frames

/-!
# When a declaration is let pass

`IsExempt` says by what stands around a declaration alone when it may hide a field: its name is of
the format that is ignored, or it is a parameter of a setter, of a constructor or of an abstract
method, and the settings let these pass. The reasons that the rule tries one after the other are
these four (`isExempt_iff`).
-/

namespace FieldShadow

namespace SyntaxTree

/-- A node is in a list of parameters, and this is the kind of what the list belongs to. -/
structure IsInList (t : SyntaxTree) (node list : Nat) (owner : NodeKind) : Prop where
  parent_node : t.parent? node = some list
  kind_list : t.kind? list = some .parameters
  kind_owner : (t.parent? list).bind t.kind? = some owner

/-- Whether a method inside a type gives back what a setter gives: nothing, or the class around it
where setters may return their class. -/
def GivesAsSetter (s : Settings) (class? : Option String) (type : TypeRef) : Prop :=
  type = .void ∨
    s.setterCanReturnItsClass ∧ ∃ name, type.identifier? = some name ∧ class? = some name

/-- The settings let a declaration pass even though it hides a field. A setter is a method with one
parameter that is named after it. -/
inductive IsExempt (t : SyntaxTree) (s : Settings) (node : Nat) (name : String) :
    DeclarationKind → Prop
  | format {kind : DeclarationKind} {p : Pattern} (pattern : s.ignoreFormat? = some p)
      (occurs : p.occursIn name) : IsExempt t s node name kind
  | setter {list : Nat} {ms : List Modifier} {type : TypeRef} (on : s.ignoreSetter)
      (inList : t.IsInList node list (.methodDef ("set" ++ Text.capitalize name) ms type))
      (only : (t.children list).length = 1)
      (gives : GivesAsSetter s (t.enclosingClass? node) type) : IsExempt t s node name .parameter
  | constructor {list : Nat} {class_ : String} {ms : List Modifier}
      (on : s.ignoreConstructorParameter)
      (inList : t.IsInList node list (.constructorDef class_ ms)) :
      IsExempt t s node name .parameter
  | abstractMethod {list : Nat} {method : String} {ms : List Modifier} {type : TypeRef}
      (on : s.ignoreAbstractMethods) (inList : t.IsInList node list (.methodDef method ms type))
      (isAbstract : .abstract ∈ ms) : IsExempt t s node name .parameter

end SyntaxTree

open SyntaxTree

/-! ## Parameter lists -/

namespace Declaration

variable {t : SyntaxTree} {d : Declaration}

/-- A declaration is in the list that it stands below, if it is a parameter. -/
theorem parameterList?_eq_some {list owner : Nat} :
    d.parameterList? t = some (list, owner) ↔
      d.kind = .parameter ∧ t.parent? d.node = some list ∧ t.kind? list = some .parameters ∧
        t.parent? list = some owner := by
  rw [parameterList?]
  constructor
  · intro h
    obtain ⟨_, hkind, h⟩ := Option.bind_eq_some_iff.mp h
    obtain ⟨list', hlist, h⟩ := Option.bind_eq_some_iff.mp h
    obtain ⟨_, hparameters, h⟩ := Option.bind_eq_some_iff.mp h
    obtain ⟨owner', howner, h⟩ := Option.bind_eq_some_iff.mp h
    obtain ⟨rfl, rfl⟩ := Prod.mk.inj (Option.some.inj h)
    refine ⟨?_, hlist, ?_, howner⟩
    · by_cases hne : d.kind = .parameter
      · exact hne
      · cases hkind.symm.trans (if_neg hne)
    · by_cases hne : t.kind? list' = some .parameters
      · exact hne
      · cases hparameters.symm.trans (if_neg hne)
  · rintro ⟨hkind, hlist, hparameters, howner⟩
    exact Option.bind_eq_some_iff.mpr ⟨(), if_pos hkind, Option.bind_eq_some_iff.mpr ⟨list, hlist,
      Option.bind_eq_some_iff.mpr ⟨(), if_pos hparameters,
        Option.bind_eq_some_iff.mpr ⟨owner, howner, rfl⟩⟩⟩⟩

/-- What the list of a parameter belongs to. -/
theorem owner?_eq_some {owner : NodeKind} :
    d.owner? t = some owner ↔ d.kind = .parameter ∧ ∃ list, t.IsInList d.node list owner := by
  rw [owner?]
  constructor
  · intro h
    obtain ⟨⟨list, id⟩, hlist, howner⟩ := Option.bind_eq_some_iff.mp h
    obtain ⟨hkind, hparent, hparameters, hid⟩ := parameterList?_eq_some.mp hlist
    exact ⟨hkind, list, hparent, hparameters, Option.bind_eq_some_iff.mpr ⟨id, hid, howner⟩⟩
  · rintro ⟨hkind, list, hparent, hparameters, howner⟩
    obtain ⟨id, hid, howner⟩ := Option.bind_eq_some_iff.mp howner
    exact Option.bind_eq_some_iff.mpr
      ⟨(list, id), parameterList?_eq_some.mpr ⟨hkind, hparent, hparameters, hid⟩, howner⟩

end Declaration

/-! ## The four reasons -/

namespace Exemption

variable {t : SyntaxTree} {s : Settings} {d : Declaration}

/-- A method gives what a setter may give exactly if the settings and its type say so. -/
theorem isSetterType_iff {class? : Option String} {type : TypeRef} :
    isSetterType s class? type ↔ GivesAsSetter s class? type := by
  unfold GivesAsSetter
  cases type with
  | void => simp [isSetterType]
  | primitive | named | array =>
    simp only [isSetterType, Bool.and_eq_true, beq_iff_eq, Option.isSome_iff_exists]
    grind

/-- The rule takes a declaration for the parameter of a setter if it is the only one in the list of
a method that is named after it and gives back what a setter gives. -/
theorem isSetterParameter_iff :
    isSetterParameter s t d ↔
      d.kind = .parameter ∧ ∃ list ms type,
        t.IsInList d.node list (.methodDef ("set" ++ Text.capitalize d.name) ms type) ∧
          (t.children list).length = 1 ∧ GivesAsSetter s d.enclosingType? type := by
  unfold isSetterParameter
  constructor
  · intro h
    split at h
    · cases h
    · next list owner hlist =>
      obtain ⟨hkind, hparent, hparameters, howner⟩ := Declaration.parameterList?_eq_some.mp hlist
      -- only a method can be a setter
      split at h
      · next method ms type hmethod =>
        simp only [Bool.and_eq_true, beq_iff_eq] at h
        obtain ⟨⟨honly, rfl⟩, htype⟩ := h
        exact ⟨hkind, list, ms, type,
          ⟨hparent, hparameters, Option.bind_eq_some_iff.mpr ⟨owner, howner, hmethod⟩⟩, honly,
          isSetterType_iff.mp htype⟩
      · cases h
  · rintro ⟨hkind, list, ms, type, ⟨hparent, hparameters, howner⟩, honly, htype⟩
    obtain ⟨owner, howner, hmethod⟩ := Option.bind_eq_some_iff.mp howner
    simp [Declaration.parameterList?_eq_some.mpr ⟨hkind, hparent, hparameters, howner⟩, hmethod,
      honly, isSetterType_iff.mpr htype]

/-- A name is exempt if the pattern occurs in it. -/
theorem applies_format : format.applies s t d ↔
    ∃ p, s.ignoreFormat? = some p ∧ p.occursIn d.name := by
  simp [applies, Option.any_eq_true]

/-- A parameter of a setter is exempt if setters are. -/
theorem applies_setter : setter.applies s t d ↔ s.ignoreSetter ∧ isSetterParameter s t d := by
  simp [applies]

/-- A parameter of a constructor is exempt if they are. -/
theorem applies_constructor : constructor.applies s t d ↔
    s.ignoreConstructorParameter ∧ ∃ class_ ms, d.owner? t = some (.constructorDef class_ ms) := by
  rw [applies, Bool.and_eq_true]
  refine and_congr_right' ?_
  split
  · next class_ ms howner => simp [howner]
  · next hother => simpa using fun class_ ms => hother class_ ms

/-- A parameter of an abstract method is exempt if they are. -/
theorem applies_abstractMethod : abstractMethod.applies s t d ↔
    s.ignoreAbstractMethods ∧ ∃ method ms type, d.owner? t = some (.methodDef method ms type) ∧
      .abstract ∈ ms := by
  rw [applies, Bool.and_eq_true]
  refine and_congr_right' ?_
  split
  · next method ms type howner => simp [howner, and_assoc]
  · next hother => simpa using fun method ms type howner => absurd howner (hother method ms type)

end Exemption

namespace SyntaxTree

variable {t : SyntaxTree} {s : Settings} {node : Nat} {name : String} {kind : DeclarationKind}

/-- One of the reasons that the rule tries applies if and only if the settings let the declaration
pass. -/
theorem isExempt_iff :
    t.IsExempt s node name kind ↔
      ∃ e ∈ Exemption.all, e.applies s t ⟨node, name, kind, t.enclosingClass? node⟩ := by
  constructor
  · rintro (⟨pattern, occurs⟩ | ⟨on, inList, only, gives⟩ | ⟨on, inList⟩ |
      ⟨on, inList, isAbstract⟩)
    · exact ⟨.format, by decide, Exemption.applies_format.mpr ⟨_, pattern, occurs⟩⟩
    · have hsetter := (Exemption.isSetterParameter_iff
        (d := ⟨node, name, .parameter, t.enclosingClass? node⟩)).mpr
        ⟨rfl, _, _, _, inList, only, gives⟩
      exact ⟨.setter, by decide, Exemption.applies_setter.mpr ⟨on, hsetter⟩⟩
    · have howner := (Declaration.owner?_eq_some
        (d := ⟨node, name, .parameter, t.enclosingClass? node⟩)).mpr ⟨rfl, _, inList⟩
      exact ⟨.constructor, by decide, Exemption.applies_constructor.mpr ⟨on, _, _, howner⟩⟩
    · have howner := (Declaration.owner?_eq_some
        (d := ⟨node, name, .parameter, t.enclosingClass? node⟩)).mpr ⟨rfl, _, inList⟩
      exact ⟨.abstractMethod, by decide,
        Exemption.applies_abstractMethod.mpr ⟨on, _, _, _, howner, isAbstract⟩⟩
  · rintro ⟨e, -, h⟩
    -- one exemption of the rule for each way to be exempt
    cases e with
    | format =>
      obtain ⟨p, pattern, occurs⟩ := Exemption.applies_format.mp h
      exact .format pattern occurs
    | setter =>
      obtain ⟨on, hsetter⟩ := Exemption.applies_setter.mp h
      obtain ⟨rfl, list, ms, type, inList, only, gives⟩ :=
        Exemption.isSetterParameter_iff.mp hsetter
      exact .setter on inList only gives
    | constructor =>
      obtain ⟨on, class_, ms, howner⟩ := Exemption.applies_constructor.mp h
      obtain ⟨rfl, list, inList⟩ := Declaration.owner?_eq_some.mp howner
      exact .constructor on inList
    | abstractMethod =>
      obtain ⟨on, method, ms, type, howner, isAbstract⟩ := Exemption.applies_abstractMethod.mp h
      obtain ⟨rfl, list, inList⟩ := Declaration.owner?_eq_some.mp howner
      exact .abstractMethod on inList isAbstract

instance : Decidable (t.IsExempt s node name kind) :=
  decidable_of_iff' _ isExempt_iff

/-- Under settings that let nothing pass nothing is let pass. -/
theorem not_isExempt_default : ¬ t.IsExempt {} node name kind := by
  rintro (⟨pattern, -⟩ | ⟨on, -⟩ | ⟨on, -⟩ | ⟨on, -⟩)
  · cases pattern
  all_goals cases on

end SyntaxTree

end FieldShadow
