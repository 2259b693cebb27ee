/-!
# Variables

Variables are texts under names. An `=` in a name could not be told from the one before the
value, and a NUL would end the name or the value, so that such variables cannot be set.
-/
namespace Scribe

abbrev Variables := List (String × String)

inductive VariableFault where
  | nullByte
  | illegalName
deriving DecidableEq, Repr

def VariableFault.message : VariableFault → String
  | nullByte => "embedded null byte"
  | illegalName => "illegal environment variable name"

namespace Variables

/-- What keeps a variable from being set; a NUL comes first. -/
def fault? (name value : String) : Option VariableFault :=
  if name.toList.contains '\x00' || value.toList.contains '\x00' then some .nullByte
  else if name.toList.contains '=' then some .illegalName
  else none

def add (env : Variables) (name value : String) : Except VariableFault Variables :=
  if (env.lookup name).isSome then .ok env
  else
    match fault? name value with
    | some fault => .error fault
    | none => .ok (env ++ [(name, value)])

end Variables
end Scribe
