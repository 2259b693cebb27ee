import Scribe.CommandLine.Help
import Scribe.Run.Engine

/-!
# Dialogues

A dialogue takes lines until a blank one ends the block, and then obeys the block: a command, or
a script that runs on the machine of the dialogue. The machine keeps its variables from block to
block. The end of the input ends the dialogue too.
-/
namespace Scribe.CommandLine
open Run

structure Dialogue where
  interpreter : Interpreter
  pending : List (List Char) := []

inductive Command where
  | exit
  | help
  | version
  | about
  | nothing
  | run (source : List Char)
deriving DecidableEq, Repr

def Command.ofBlock (block : List Char) : Command :=
  match String.ofList block with
  | "exit" => .exit
  | "help" => .help
  | "version" | "--version" => .version
  | "about" | "--about" => .about
  | "" => .nothing
  | _ => .run block

def greeting : String := "Enter NeuroChain code (finish with an empty line):"

def prompt : String := "... "

namespace Dialogue
variable {κ : Type}

def greet : Task (World κ) Unit := do
  World.printLine greeting
  World.print prompt

def runBlock (c : Config) (classify : Classify κ) (source : List Char) (i : Interpreter) :
    Task (World κ) Interpreter :=
  fun w =>
    match i.run c classify source w with
    | ((.ok _, i), w) => (.ok i, w)
    | ((.error crash, _), w) => (.error crash, w)

/-- Obeys a block; nothing is left of the dialogue when it ends. -/
def obey (c : Config) (classify : Classify κ) (i : Interpreter) :
    Command → Task (World κ) (Option Interpreter)
  | .exit => do
    World.printLine "Exiting..."
    return none
  | .help => do
    World.printLine syntaxHelp
    return some i
  | .version => do
    World.printLine versionLine
    return some i
  | .about => do
    World.printLine about
    return some i
  | .nothing => return some i
  | .run source => return some (← runBlock c classify source i)

def take (c : Config) (classify : Classify κ) (d : Dialogue) (line : List Char) :
    Task (World κ) (Option Dialogue) := do
  if (Text.trim line).isEmpty then
    let block := Text.trim (Text.joinLines d.pending)
    match ← obey c classify d.interpreter (.ofBlock block) with
    | none => return none
    | some interpreter =>
      greet
      return some { interpreter }
  else
    World.print prompt
    return some { d with pending := d.pending ++ [line] }

def takeAll (c : Config) (classify : Classify κ) :
    Dialogue → List (List Char) → Task (World κ) Unit
  | _, [] => pure ()
  | d, line :: rest => do
    match ← d.take c classify line with
    | none => pure ()
    | some d => d.takeAll c classify rest

def start (c : Config) : Dialogue where
  interpreter := Run.interpreter c [.console defaultMark]

def hold (c : Config) (classify : Classify κ) (lines : List (List Char)) :
    Task (World κ) Unit := do
  greet
  (start c).takeAll c classify lines

end Dialogue

/-- The lines of an input; the last one need not be ended. -/
def inputLines (input : List Char) : List (List Char) :=
  let lines := Text.lines input
  if lines.getLast? == some [] then lines.dropLast else lines

end Scribe.CommandLine
