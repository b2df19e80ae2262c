import PathQuery.Text.Word
/-!
# Patterns

In a LIKE pattern `%` stands for any text and `_` for any character, unless a backslash precedes them.
Text that has to match literally is escaped.
-/

namespace PathQuery.Like

def isSpecial (c : Char) : Bool :=
  c == '\\' || c == '%' || c == '_'

/-- Puts a backslash before each special character. -/
def escape (text : String) : String :=
  Text.replaceChars (fun c => if isSpecial c then some ['\\', c] else none) text

end PathQuery.Like
