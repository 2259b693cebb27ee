import Scribe.Decimal.Numeral
import Scribe.Pattern.Search
import Scribe.Text.Slice

/-!
# Options on a command line

An option has a name that starts with two dashes, and may be shortened as long as the name is
clear. An option with a value takes it behind `=` or as the next argument; a negative number and
an argument with a space in it can be values although they start with a dash. What is no option
is free; `--` makes everything behind it free.
-/
namespace Scribe.CommandLine

structure Grammar where
  flags : List String
  valued : List String
  /-- Whether one free argument may be given. -/
  takesFree : Bool := false

inductive UsageFault where
  | ambiguous (argument : String)
  | unrecognized (arguments : List String)
  | valueMissing (option : String)
  | valueUnwanted (option : String)
  | notNumber (option value : String)
  | required (option : String)
deriving DecidableEq, Repr

def UsageFault.message : UsageFault → String
  | ambiguous argument => s!"ambiguous option: {argument}"
  | unrecognized arguments => "unrecognized arguments: " ++ " ".intercalate arguments
  | valueMissing option => s!"argument {option}: expected one argument"
  | valueUnwanted option => s!"argument {option}: ignored explicit argument"
  | notNumber option value => s!"argument {option}: invalid value: {value}"
  | required option => s!"the following arguments are required: {option}"

inductive Stop where
  | help
  | misuse (fault : UsageFault)
deriving DecidableEq, Repr

/-- What the arguments say; the value given last comes first. -/
structure Choices where
  flags : List String := []
  values : List (String × String) := []
  free : Option String := none
  unrecognized : List String := []
deriving DecidableEq, Repr

namespace Choices

def has (c : Choices) (flag : String) : Bool := c.flags.contains flag

def value? (c : Choices) (option : String) : Option String := c.values.lookup option

/-- The number given last for an option, if one is given; those before it must be numbers too. -/
def read? {α : Type} (c : Choices) (read : List Char → Option α) (option : String) :
    Except Stop (Option α) := do
  let given := (c.values.filter (·.1 == option)).map Prod.snd
  let numbers ← given.mapM fun value =>
    match read value.toList with
    | some x => .ok x
    | none => .error (.misuse (.notNumber option value))
  return numbers.head?

end Choices

inductive Shape where
  | free
  | help
  | flag (name : String)
  | valued (name : String)
  | unknown
  | ambiguous
deriving DecidableEq, Repr

def helpNames : List String := ["-h", "--help"]

namespace Grammar

def names (g : Grammar) : List String := helpNames ++ g.flags ++ g.valued

def shapeOf (g : Grammar) (name : String) : Shape :=
  if helpNames.contains name then .help
  else if g.flags.contains name then .flag name
  else .valued name

end Grammar

def cutValue (argument : String) : String × Option String :=
  let cs := argument.toList
  match Text.splitAt '=' cs with
  | name :: _ :: _ => (String.ofList name, some (String.ofList (cs.drop (name.length + 1))))
  | _ => (argument, none)

def negativeNumber : Pattern :=
  .char '-' ++ (.digits ++ .atEnd ||| .many .digit ++ .char '.' ++ .digits ++ .atEnd)

def Grammar.classify (g : Grammar) (argument : String) : Shape × Option String :=
  if argument.toList.head? != some '-' then (.free, none)
  else if g.names.contains argument then (g.shapeOf argument, none)
  else if argument == "-" then (.free, none)
  else
    let (name, value) := cutValue argument
    if g.names.contains name then (g.shapeOf name, value)
    else
      let long := "--".toList.isPrefixOf argument.toList
      let matching := if long then g.names.filter fun n => name.toList.isPrefixOf n.toList else []
      match matching with
      | [n] => (g.shapeOf n, value)
      | _ :: _ :: _ => (.ambiguous, none)
      | [] =>
        if "-h".toList.isPrefixOf argument.toList then (.help, some argument)
        else if (negativeNumber.matchStart argument.toList).isSome then (.free, none)
        else if argument.toList.contains ' ' then (.free, none)
        else (.unknown, none)

inductive Mode where
  | plain
  /-- The free argument has just been given. -/
  | afterFree
  | valueOf (option : String)
  /-- Everything is free. -/
  | behindDashes
deriving DecidableEq, Repr

structure State where
  choices : Choices := {}
  mode : Mode := .plain
deriving DecidableEq, Repr

namespace State

def choose (c : Choices) : State := ⟨c, .plain⟩

def refuse (s : State) (argument : String) (mode : Mode) : State :=
  ⟨{ s.choices with unrecognized := s.choices.unrecognized ++ [argument] }, mode⟩

def takeFree (s : State) (g : Grammar) (argument : String) (taken refused : Mode) : State :=
  if g.takesFree && s.choices.free.isNone then
    ⟨{ s.choices with free := some argument }, taken⟩
  else s.refuse argument refused

end State

def Grammar.stepPlain (g : Grammar) (s : State) (argument : String) : Except Stop State :=
  let c := s.choices
  if argument == "--" then
    if (g.takesFree && c.free.isNone) || s.mode == .afterFree then .ok ⟨c, .behindDashes⟩
    else .ok (s.refuse argument .behindDashes)
  else
    match g.classify argument with
    | (.free, _) => .ok (s.takeFree g argument .afterFree .plain)
    | (.unknown, _) => .ok (s.refuse argument .plain)
    | (.ambiguous, _) => .error (.misuse (.ambiguous argument))
    | (.help, none) => .error .help
    | (.help, some _) => .error (.misuse (.valueUnwanted argument))
    | (.flag name, none) => .ok (.choose { c with flags := name :: c.flags })
    | (.flag name, some _) => .error (.misuse (.valueUnwanted name))
    | (.valued name, none) => .ok ⟨c, .valueOf name⟩
    | (.valued name, some value) => .ok (.choose { c with values := (name, value) :: c.values })

def Grammar.step (g : Grammar) (s : State) (argument : String) : Except Stop State :=
  match s.mode with
  | .plain | .afterFree => g.stepPlain s argument
  | .valueOf name =>
    if argument != "--" && (g.classify argument).1 == .free then
      .ok (.choose { s.choices with values := (name, argument) :: s.choices.values })
    else .error (.misuse (.valueMissing name))
  | .behindDashes => .ok (s.takeFree g argument .behindDashes .behindDashes)

def State.finish (s : State) : Except Stop Choices :=
  match s.mode with
  | .valueOf name => .error (.misuse (.valueMissing name))
  | _ =>
    if s.choices.unrecognized.isEmpty then .ok s.choices
    else .error (.misuse (.unrecognized s.choices.unrecognized))

def Grammar.read (g : Grammar) (arguments : List String) : Except Stop Choices := do
  (← arguments.foldlM g.step {}).finish

end Scribe.CommandLine
