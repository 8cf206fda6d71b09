import FieldShadow.Pattern
import FieldShadow.Pattern.Parse

/-!
# The engine that runs

Patterns compiled by the reader of expressions. Nothing that is said of configurations, rules and
calls depends on it: it stands in for an engine where a program or an example has to run.
-/

namespace FieldShadow

namespace Pattern

instance engine : PatternEngine where
  compile? text := (Expr.parse? text).map fun expr => ⟨text, fun name => expr.occursIn name.toList⟩

instance lawful_engine : LawfulPatternEngine where
  text_of_compile? {text p} h := by
    obtain ⟨expr, -, rfl⟩ := Option.map_eq_some_iff.mp h
    rfl

end Pattern

end FieldShadow
