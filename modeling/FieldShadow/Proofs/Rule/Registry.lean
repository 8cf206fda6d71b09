import FieldShadow.Rule.Registry
import Mathlib.Data.List.Basic
import Mathlib.Data.List.Induction
import Mathlib.Data.List.Nodup

/-!
# The registry as a map

A registry is a map from names to rules that keeps the order in which the names came up first.
Registering replaces the rule of a name where it stands, or puts a new name at the end
(`place_eq`), so after any history of registrations each name has one rule, the one that was
registered last under it (`isMapOf_registered`).
-/

namespace FieldShadow

namespace Registry

variable {ρ : Type} [Rule ρ]

/-- The name that a rule is registered under. -/
def ruleName (rule : ρ) : String :=
  (Rule.info rule).id

/-- The names of some rules. -/
def names (rules : List ρ) : List String :=
  rules.map ruleName

/-- The registry that some rules were registered in one after the other. -/
def registered (history : List ρ) : Registry ρ :=
  history.foldl register empty

/-- The rule that was registered last under a name. -/
def lastUnder? (history : List ρ) (name : String) : Option ρ :=
  history.reverse.find? fun rule => ruleName rule = name

/-- Whether a registry has the names of a history in the order in which they came up first, each
once and with the rule that was registered last under it. -/
structure IsMapOf (r : Registry ρ) (history : List ρ) : Prop where
  nodup : (names r.rules).Nodup
  ordered : (names r.rules).Pairwise fun a b =>
    (names history).idxOf a < (names history).idxOf b
  registered : ∀ name, name ∈ names r.rules ↔ name ∈ names history
  entry : ∀ rule ∈ r.rules, lastUnder? history (ruleName rule) = some rule
  find : ∀ name, r.find? name = lastUnder? history name
  missing : ∀ name, r.find? name = none ↔ name ∉ names history

/-- Whether registering a rule puts it in the place of its name, or at the end if the name is new,
and leaves what is registered under other names as it is and where it is. -/
structure Registers (r : Registry ρ) (rule : ρ) : Prop where
  replaced : ∀ i : Nat, (names r.rules)[i]? = some (ruleName rule) →
    (r.register rule).rules = r.rules.set i rule
  appended : ruleName rule ∉ names r.rules → (r.register rule).rules = r.rules ++ [rule]
  place : ∀ (i : Nat) (other : ρ), r.rules[i]? = some other → ruleName other ≠ ruleName rule →
    (r.register rule).rules[i]? = some other
  content : ∀ name, name ≠ ruleName rule → (r.register rule).find? name = r.find? name

/-! ## One registration -/

/-- A rule takes the place of the first one with its name, or comes last. -/
theorem place_eq (rule : ρ) (rules : List ρ) :
    place rule rules =
      if ruleName rule ∈ names rules then rules.set ((names rules).idxOf (ruleName rule)) rule
      else rules ++ [rule] := by
  induction rules with
  | nil => rfl
  | cons other others ih =>
    by_cases h : ruleName other = ruleName rule
    · have hplace : place rule (other :: others) = rule :: others := if_pos h
      simp [hplace, names, h]
    · have hplace : place rule (other :: others) = other :: place rule others := if_neg h
      have hnames : names (other :: others) = ruleName other :: names others := rfl
      rw [hplace, ih]
      by_cases hmem : ruleName rule ∈ names others
      · rw [if_pos hmem, if_pos (hnames ▸ List.mem_cons_of_mem _ hmem), hnames,
          List.idxOf_cons_ne _ h, List.set_cons_succ]
      · rw [if_neg hmem, if_neg (by simp [hnames, hmem, Ne.symm h]), List.cons_append]

/-- The first place of a name in the row has that name. -/
theorem getElem?_idxOf_names {rule : ρ} {rules : List ρ} (h : ruleName rule ∈ names rules) :
    (names rules)[(names rules).idxOf (ruleName rule)]? = some (ruleName rule) := by
  rw [List.getElem?_eq_getElem (List.idxOf_lt_length_of_mem h), List.getElem_idxOf]

/-- A rule takes the place of the one with its name, or the end of the row. -/
theorem names_place (rule : ρ) (rules : List ρ) :
    names (place rule rules) =
      if ruleName rule ∈ names rules then names rules else names rules ++ [ruleName rule] := by
  rw [place_eq]
  split
  · next hmem =>
    rw [names, List.map_set, ← names]
    refine List.ext_getElem? fun i => ?_
    rw [List.getElem?_set]
    split
    · next hi => rw [if_pos (List.idxOf_lt_length_of_mem hmem), ← hi, getElem?_idxOf_names hmem]
    · rfl
  · rw [names, List.map_append]
    rfl

/-- The names of a row with one more rule are those it had and that of the rule. -/
theorem mem_names_place {rule : ρ} {rules : List ρ} {name : String} :
    name ∈ names (place rule rules) ↔ name ∈ names rules ∨ name = ruleName rule := by
  rw [names_place]
  split
  · next hmem => exact ⟨.inl, fun h => h.elim id fun heq => heq ▸ hmem⟩
  · rw [List.mem_append, List.mem_singleton]

/-- What is found under a name: the new rule under its own, under others what was there. -/
theorem find?_place_eq (rule : ρ) (rules : List ρ) (name : String) :
    (place rule rules).find? (fun r => ruleName r = name) =
      if ruleName rule = name then some rule else rules.find? fun r => ruleName r = name := by
  split
  · next h =>
    subst h
    exact find?_place rule rules
  · next h =>
    induction rules with
    | nil => simp [place, h]
    | cons other others ih =>
      unfold place
      split
      · next hother =>
        have hne : ¬ ruleName other = name := fun heq => h (hother.symm.trans heq)
        simp [h, hne]
      · rw [List.find?_cons, List.find?_cons, ih]

/-- Look-up takes the first rule with the name. -/
theorem find?_eq (r : Registry ρ) (name : String) :
    r.find? name = r.rules.find? fun rule => ruleName rule = name :=
  rfl

/-- A name finds what was registered under it last; all others find what they did. -/
theorem find?_register_eq (r : Registry ρ) (rule : ρ) (name : String) :
    (r.register rule).find? name = if ruleName rule = name then some rule else r.find? name :=
  find?_place_eq rule r.rules name

/-- With distinct names each rule is the one that is found under its name. -/
theorem find?_eq_of_mem {r : Registry ρ} {rule : ρ} (hnodup : (names r.rules).Nodup)
    (hrule : rule ∈ r.rules) : r.find? (ruleName rule) = some rule := by
  rw [find?_eq]
  cases hfound : r.rules.find? fun other => ruleName other = ruleName rule with
  | none => exact absurd (decide_eq_true rfl) (List.find?_eq_none.mp hfound rule hrule)
  | some other =>
    have hname : ruleName other = ruleName rule := by simpa using List.find?_some hfound
    rw [List.inj_on_of_nodup_map hnodup (List.mem_of_find?_eq_some hfound) hrule hname]

/-- Each registration does what is asked of one, in a registry without double names. -/
theorem registers {r : Registry ρ} (hnodup : (names r.rules).Nodup) (rule : ρ) :
    r.Registers rule := by
  have hrules : (r.register rule).rules = place rule r.rules := rfl
  refine ⟨fun i hi => ?_, fun hnew => ?_, fun i other hi hother => ?_, fun name hname => ?_⟩
  · -- names occur once, so the place that is replaced is the one asked about
    obtain ⟨hlt, hname⟩ := List.getElem?_eq_some_iff.mp hi
    have hidx : (names r.rules).idxOf (ruleName rule) = i := by
      rw [← hname]
      exact List.get_idxOf hnodup ⟨i, hlt⟩
    rw [hrules, place_eq, if_pos (List.mem_of_getElem? hi), hidx]
  · rw [hrules, place_eq, if_neg hnew]
  · rw [hrules, place_eq]
    split
    · next hmem =>
      -- the place that is replaced has the name of the new rule, so it is another one
      have hne : (names r.rules).idxOf (ruleName rule) ≠ i := by
        rintro rfl
        have hname := getElem?_idxOf_names hmem
        rw [names, List.getElem?_map, ← names, hi, Option.map_some] at hname
        exact hother (Option.some.inj hname)
      rw [List.getElem?_set_ne hne, hi]
    · rw [List.getElem?_append_left (List.getElem?_eq_some_iff.mp hi).1, hi]
  · rw [find?_register_eq, if_neg (Ne.symm hname)]

/-! ## Histories -/

/-- The last of a history under a name is its last rule, if that has the name. -/
theorem lastUnder?_concat (history : List ρ) (rule : ρ) (name : String) :
    lastUnder? (history ++ [rule]) name =
      if ruleName rule = name then some rule else lastUnder? history name := by
  rw [lastUnder?, List.reverse_append, List.reverse_singleton, List.singleton_append,
    List.find?_cons, lastUnder?]
  by_cases h : ruleName rule = name <;> simp [h]

/-- A history has nothing under a name exactly if the name does not occur. -/
theorem lastUnder?_eq_none {history : List ρ} {name : String} :
    lastUnder? history name = none ↔ name ∉ names history := by
  simp [lastUnder?, names]

/-- Names that come up later come after those that are there. -/
theorem ordered_place {history rules : List ρ} {rule : ρ}
    (hmem : ∀ name, name ∈ names rules ↔ name ∈ names history)
    (h : (names rules).Pairwise fun a b => (names history).idxOf a < (names history).idxOf b) :
    (names (place rule rules)).Pairwise fun a b =>
      (names (history ++ [rule])).idxOf a < (names (history ++ [rule])).idxOf b := by
  have happend : names (history ++ [rule]) = names history ++ [ruleName rule] := List.map_append
  -- names that were known keep the place of their first registration
  have hold : ∀ name ∈ names rules,
      (names (history ++ [rule])).idxOf name = (names history).idxOf name := fun name hname => by
    rw [happend, List.idxOf_append_of_mem ((hmem name).mp hname)]
  have hrules : (names rules).Pairwise fun a b =>
      (names (history ++ [rule])).idxOf a < (names (history ++ [rule])).idxOf b :=
    h.imp_of_mem fun ha hb hlt => by rwa [hold _ ha, hold _ hb]
  rw [names_place]
  split
  · exact hrules
  · next hnew =>
    refine List.pairwise_append.mpr ⟨hrules, List.pairwise_singleton _ _, fun a ha b hb => ?_⟩
    -- a new name comes last in the history
    obtain rfl := List.mem_singleton.mp hb
    rw [hold a ha, happend, List.idxOf_append_of_notMem (mt (hmem _).mpr hnew)]
    exact Nat.lt_add_right _ (List.idxOf_lt_length_of_mem ((hmem a).mp ha))

/-- A registry is the map of its history. Induction on the history from its end, with names that
stay without doubles. -/
theorem isMapOf (history : List ρ) : (registered history).IsMapOf history := by
  induction history using List.reverseRecOn with
  | nil =>
    refine ⟨List.nodup_nil, List.Pairwise.nil, fun _ => Iff.rfl, nofun, fun _ => rfl, fun _ => ?_⟩
    exact iff_of_true rfl List.not_mem_nil
  | append_singleton history rule ih =>
    have hregister : registered (history ++ [rule]) = (registered history).register rule :=
      List.foldl_append
    have hrules : (registered (history ++ [rule])).rules =
        place rule (registered history).rules := by
      rw [hregister]
      rfl
    have hfind : ∀ name, (registered (history ++ [rule])).find? name =
        lastUnder? (history ++ [rule]) name := fun name => by
      rw [hregister, find?_register_eq, lastUnder?_concat, ih.find]
    -- registering keeps the place of a name that is there, and puts a new one last
    have hordered : (names (registered (history ++ [rule])).rules).Pairwise fun a b =>
        (names (history ++ [rule])).idxOf a < (names (history ++ [rule])).idxOf b := by
      rw [hrules]
      exact ordered_place ih.registered ih.ordered
    -- entries in strict order of their first registration are distinct
    have hnodup : (names (registered (history ++ [rule])).rules).Nodup := by
      refine hordered.imp ?_
      rintro a b hlt rfl
      exact Nat.lt_irrefl _ hlt
    refine ⟨hnodup, hordered, fun name => ?_, fun entry hentry => ?_, hfind, fun name => ?_⟩
    · have hhistory : names (history ++ [rule]) = names history ++ [ruleName rule] :=
        List.map_append
      rw [hrules, mem_names_place, ih.registered, hhistory, List.mem_append, List.mem_singleton]
    · rw [← hfind]
      exact find?_eq_of_mem hnodup hentry
    · rw [hfind, lastUnder?_eq_none]

/-- After any registrations a registry maps each name that came up to the rule that was registered
last under it, in the order in which the names came up first; and one more registration changes only
what is registered under its own name. -/
theorem isMapOf_registered (history : List ρ) :
    (registered history).IsMapOf history ∧ ∀ rule, (registered history).Registers rule :=
  ⟨isMapOf history, registers (isMapOf history).nodup⟩

/-- The second rule of a name stands where the first one stood. -/
example :
    (registered [⟨"a", "old", .error⟩, ⟨"b", "other", .info⟩, ⟨"a", "new", .warning⟩] :
        Registry RuleInfo).rules =
      [⟨"a", "new", .warning⟩, ⟨"b", "other", .info⟩] := by
  decide

end Registry

end FieldShadow
