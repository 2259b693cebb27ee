/-!
# The corpus of the smoke test

Instructions that must expand and run, with the scripts that prepare for them, and scripts that
must be refused with a diagnostic.
-/
namespace Scribe.Smoke

structure Trial where
  instruction : String
  setup : String := ""

structure Group where
  name : String
  trials : List Trial

def loops : List Trial := [
  { instruction := "Show Ping 3 times" },
  { instruction := "Repeat 'Go team' three times" },
  { instruction := "Say hello 40 times" }]

def logic : List Trial := [
  { instruction := "\"If score >= 90 say Excellent, elif score >= 70 say Good, else say Needs work\""
    setup := "set score = 78" },
  { instruction := "Show status when flag is true"
    setup := "set flag = true\nset status = \"ready\"" },
  { instruction := "Create variable total = 3 + 4 and print it" },
  { instruction := "Subtract 3 from 10, divide by 7, store in q and print it" },
  { instruction := "Print 'Hello ' + name"
    setup := "set name = \"Ada\"" }]

def others : List Trial := [
  { instruction := "Set a = 1 and b = 2, then print a + b" },
  { instruction := "Set role moderator" },
  { instruction := "Say the number 42" },
  { instruction := "Format Hello and World with a comma" },
  { instruction := "\"Add a comment that says setup done\"" },
  { instruction := "Bridge assistant output to UI" },
  { instruction := "Tell me a joke" }]

def groups : List Group := [⟨"Loop", loops⟩, ⟨"Logic", logic⟩, ⟨"Misc", others⟩]

def faultyScripts : List String := [
  "set x 5",
  "neuro 1 / 0",
  "neuro \"unterminated",
  "if x:\n\tneuro x"]

end Scribe.Smoke
