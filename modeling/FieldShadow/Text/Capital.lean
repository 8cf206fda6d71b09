import FieldShadow.Unicode.Case

/-!
# Capital letters

The name of a property as it stands behind the verb of an accessor.
-/

namespace FieldShadow.Text

/-- Writes the first character in uppercase, unless the second one is uppercase already: the
property behind `setxAxis` is written `xAxis`. -/
def capitalizeChars : List Char → List Char
  | [] => []
  | first :: rest =>
    if rest.head?.any Unicode.isUppercase then first :: rest
    else Unicode.toUppercase first ++ rest

/-- A name as it stands behind the verb of an accessor. -/
def capitalize (name : String) : String :=
  String.ofList (capitalizeChars name.toList)

end FieldShadow.Text
