/-!
# Runs of case pairs

The case tables map code points in regular runs: a block moves as a whole, or every second code
point of a block does.
-/

namespace FieldShadow.Unicode

/-- The code points `first`, `first + step`, … up to `last`, mapped to `target`, `target + step`
and so on. -/
structure CaseRun where
  first : Nat
  last : Nat
  step : Nat
  target : Nat

/-- Where the run sends `n`, if `n` is one of its code points. -/
def CaseRun.image? (r : CaseRun) (n : Nat) : Option Nat :=
  if r.first ≤ n ∧ n ≤ r.last ∧ (n - r.first) % r.step = 0 then some (r.target + (n - r.first))
  else none

/-- The code point of the run that is sent to `n`, if there is one. -/
def CaseRun.preimage? (r : CaseRun) (n : Nat) : Option Nat :=
  if r.target ≤ n ∧ n - r.target ≤ r.last - r.first ∧ (n - r.target) % r.step = 0 then
    some (r.first + (n - r.target))
  else none

end FieldShadow.Unicode
