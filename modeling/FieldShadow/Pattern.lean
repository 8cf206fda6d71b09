/-!
# Patterns

A pattern is a regular expression that an engine compiles from a text. Which texts compile and what
a compiled pattern matches is the engine's affair, so the engine is a parameter of everything that
reads a configuration, and a compiled pattern is only what is seen of it: its text and its answers.
-/

namespace FieldShadow

/-- A compiled pattern: the text it was compiled from, and whether it matches some part of a
text. -/
structure Pattern where
  text : String
  occursIn : String → Bool

/-- An engine for patterns: the pattern that a text is compiled to. A text that is refused gives
nothing. -/
class PatternEngine where
  compile? : String → Option Pattern

/-- What is documented of engines: a compiled pattern gives back the text it was compiled from. -/
class LawfulPatternEngine [PatternEngine] : Prop where
  text_of_compile? : ∀ {text : String} {p : Pattern},
    PatternEngine.compile? text = some p → p.text = text

end FieldShadow
