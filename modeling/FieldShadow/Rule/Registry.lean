import FieldShadow.Diagnostic

/-!
# The rule registry

Rules in the order in which their names were first registered, which is also the order in which
they are told of every event.
-/

namespace FieldShadow

/-- What a rule says about itself. -/
structure RuleInfo where
  id : String
  description : String
  severity : Severity
  deriving DecidableEq, Repr

/-- Rules that say something about themselves. -/
class Rule (ρ : Type) where
  info : ρ → RuleInfo

instance : Rule RuleInfo where
  info := id

/-- Registered rules, at most one for each name. -/
structure Registry (ρ : Type) where
  rules : List ρ

namespace Registry

variable {ρ : Type} [Rule ρ]

/-- A registry without rules. -/
def empty : Registry ρ :=
  ⟨[]⟩

/-- Puts a rule in the place of the first one with its name, or at the end. -/
def place (rule : ρ) : List ρ → List ρ
  | [] => [rule]
  | other :: others =>
    if (Rule.info other).id = (Rule.info rule).id then rule :: others
    else other :: place rule others

/-- A rule that was put in its place is found under its name. -/
theorem find?_place (rule : ρ) (rules : List ρ) :
    (place rule rules).find? (fun r => (Rule.info r).id = (Rule.info rule).id) = some rule := by
  induction rules with
  | nil => simp [place]
  | cons other others ih =>
    unfold place
    split
    · simp
    · next h => simpa [h] using ih

/-- Registers a rule; one with the same name is replaced where it stands. -/
def register (r : Registry ρ) (rule : ρ) : Registry ρ :=
  ⟨place rule r.rules⟩

/-- The rule with a name. -/
def find? (r : Registry ρ) (id : String) : Option ρ :=
  r.rules.find? fun rule => (Rule.info rule).id = id

/-- What all rules say about themselves. -/
def infos (r : Registry ρ) : List RuleInfo :=
  r.rules.map Rule.info

end Registry

end FieldShadow
