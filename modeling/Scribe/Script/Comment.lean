/-!
# Comments

A comment starts at `#` or `//` outside a double-quoted string and runs to the end of the line.
A backslash inside a string shields the next character.
-/
namespace Scribe.Script

/-- The code of a line, from a point that lies inside a string or outside. -/
def stripCommentFrom : (inString : Bool) → List Char → List Char
  | _, [] => []
  | true, '\\' :: c :: r => '\\' :: c :: stripCommentFrom true r
  | true, '"' :: r => '"' :: stripCommentFrom false r
  | true, c :: r => c :: stripCommentFrom true r
  | false, '"' :: r => '"' :: stripCommentFrom true r
  | false, '#' :: _ => []
  | false, '/' :: '/' :: _ => []
  | false, c :: r => c :: stripCommentFrom false r

def stripComment (line : List Char) : List Char :=
  stripCommentFrom false line

end Scribe.Script
