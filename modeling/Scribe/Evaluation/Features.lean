import Scribe.Evaluation.Tally
import Scribe.Pattern.Search
import Scribe.Text.Lowercase
import Scribe.Text.Slice

/-!
# Features of a script

The lines of a script are sorted by how they start, without reading the script.
-/
namespace Scribe.Evaluation

def branchWord : Pattern :=
  .choice (["if", "elif", "else"].map fun s => .exactly s.toList) ++ .edge

def startsWith (s : String) (line : List Char) : Bool :=
  s.toList.isPrefixOf line

/-- The feature that a line shows; a blank line shows none. A branch counts under its first word,
without colons behind it. -/
def featureOf (line : List Char) : Option String :=
  let line := Text.lower (Text.trim line)
  if line.isEmpty then none
  else if startsWith "#" line || startsWith "//" line then some "comment"
  else if (branchWord.matchStart line).isSome then
    some (String.ofList (Text.dropEndWhile (· == ':') (line.takeWhile fun c => !Text.isBlank c)))
  else if startsWith "set " line then some "set"
  else if startsWith "neuro " line then some "neuro"
  else some "other"

def features (script : List Char) : Tally :=
  Tally.ofList ((Text.lines script).filterMap featureOf)

end Scribe.Evaluation
