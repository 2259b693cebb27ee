/-!
# Texts of the command line
-/
namespace Scribe.CommandLine

def version : String := "0.3.0"

def versionLine : String := "🧬 NeuroChain version " ++ version

def about : String :=
  "NeuroChain CLI: a small language for local classifiers, logic and macros."

def syntaxLines : List String := [
  "",
  "NeuroChain language help",
  "",
  "Basic syntax:",
  "----------------------------------------",
  "AI: \"models/sst2/model.json\"     Select a classifier model",
  "set x = \"value\"                  Set a variable",
  "set x from AI: input text        Run the active model on the text into x",
  "neuro x                          Print an expression",
  "macro from AI: Show Ping 3 times Synthesize DSL from an instruction and run it",
  "",
  "Macros:",
  "----------------------------------------",
  "Intents: Loop Branch Arith Concat RoleFlag AIBridge DocPrint SetVar Unknown",
  "Quote the instruction when it contains if/elif/else/and/or or a comment marker:",
  "  macro from AI: \"If score >= 90 say Excellent, elif score >= 70 say Good, else say Needs work\"",
  "Loop counts are clamped to 1..12.",
  "",
  "Control flow:",
  "----------------------------------------",
  "if mood == \"positive\":",
  "    neuro \"Great\"",
  "elif mood == \"negative\":",
  "    neuro \"Sorry\"",
  "else:",
  "    neuro \"Hmm\"",
  "",
  "Operators:",
  "----------------------------------------",
  "+ - * / %           Numeric when both sides read as numbers, + concatenates otherwise",
  "== != < > <= >=     Text comparison ignores case and surrounding whitespace",
  "and or              Logical operators",
  "",
  "Comments:",
  "----------------------------------------",
  "# comment",
  "// comment",
  "",
  "Unbound names print as themselves: `neuro foo` prints foo.",
  "",
  "Logging:",
  "----------------------------------------",
  "NEUROCHAIN_OUTPUT_LOG=1    mirror output into logs/run_latest.log",
  "NEUROCHAIN_RAW_LOG=1       write intent/DSL traces to logs/macro_raw_latest.log",
  ""]

def syntaxHelp : String := "\n".intercalate syntaxLines

def usage : String :=
  "usage: neurochain [--generate TEXT] [--syntax] [--version] [--about] [--threshold NUMBER] " ++
    "[--macro-model PATH] [script]"

end Scribe.CommandLine
