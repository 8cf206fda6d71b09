import FieldShadow.Grammar.Parser
import FieldShadow.Text.Utf8

/-!
# Errors

Everything that can keep a source from being checked, with its wording.
-/

namespace FieldShadow

/-- Why a check could not be done. -/
inductive LintError where
  | malformedLine (line : String)
  | unknownProperty (key : String)
  | invalidValue (property value : String)
  | invalidPattern (text : String)
  | malformedText (e : Text.Utf8Error)
  | lexical (e : LexError)
  | unparsable (e : ParseError)
  | unbalancedScope
  deriving DecidableEq, Repr

/-- The wording of an error. -/
def LintError.message : LintError → String
  | .malformedLine line => "Failed to parse configuration line: " ++ line
  | .unknownProperty key => "Unknown configuration property encountered: " ++ key
  | .invalidValue property value => "Invalid value for property " ++ property ++ ": " ++ value
  | .invalidPattern text => "unable to parse " ++ text
  | .malformedText e => "UTF-8 conversion error: " ++ e.message
  | .lexical e => "Lexer encountered an error while tokenizing input: " ++ e.message
  | .unparsable e => "Parser encountered errors: " ++ e.message
  | .unbalancedScope =>
    "Unbalanced type body scope: attempted to leave the compilation unit frame"

end FieldShadow
