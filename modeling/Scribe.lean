import Scribe.Text.WordChar
import Scribe.Text.Blank
import Scribe.Text.DecimalDigit
import Scribe.Text.Lowercase
import Scribe.Text.Slice
import Scribe.Text.Quoted
import Scribe.Text.Utf8
import Scribe.Decimal.Layout
import Scribe.Decimal.Numeral
import Scribe.Script.Parser
import Scribe.Eval
import Scribe.Pattern.Search
import Scribe.Instruction.Count
import Scribe.Instruction.Condition
import Scribe.Instruction.Assignment
import Scribe.Instruction.Template
import Scribe.Datum.Reader
import Scribe.Datum.Printer
import Scribe.Files
import Scribe.Classifier.Cache
import Scribe.Instruction.Expansion
import Scribe.Run.Engine
import Scribe.Shipped
import Scribe.Settings
import Scribe.CommandLine.Options
import Scribe.CommandLine
import Scribe.Evaluation.Summary
import Scribe.Evaluation.Command
import Scribe.Smoke
import Scribe.Main
import Scribe.Proofs.Script.Grammar
import Scribe.Proofs.Script.ExpressionReading
import Scribe.Proofs.Script.StatementReading
import Scribe.Proofs.Script.ExpressionCoverage
import Scribe.Proofs.Script.StatementCoverage
import Scribe.Proofs.Script.Completions
import Scribe.Proofs.Script.CoverageStep
import Scribe.Proofs.Script.Tokens
import Scribe.Proofs.Script.Exactness
import Scribe.Proofs.Pattern.Matches
import Scribe.Proofs.Pattern.Groups
import Scribe.Proofs.Text.OneLine
import Scribe.Proofs.Instruction.OneLine
import Scribe.Proofs.Instruction.TemplateLines
import Scribe.Proofs.Instruction.Rendering
import Scribe.Proofs.Script.LineReading
import Scribe.Proofs.Instruction.TemplateReading
import Scribe.Proofs.Script.Instructions
import Scribe.Proofs.Run.TameRun
import Scribe.Proofs.Run.Containment
import Scribe.Proofs.Instruction.Unwrap
import Scribe.Proofs.Script.Literals
import Scribe.Proofs.Run.Echo
import Scribe.Proofs.Instruction.Counts
import Scribe.Proofs.Instruction.Totality
import Scribe.Proofs.Instruction.Loops
import Scribe.Proofs.Run.Expanding
import Scribe.Proofs.Script.Trees
import Scribe.Proofs.Run.Survival
import Scribe.Proofs.Run.Emission
import Scribe.Proofs.Script.Positions
import Scribe.Proofs.Script.EarliestFault
import Scribe.Proofs.Script.Drafts
import Scribe.Proofs.Script.TermReading
import Scribe.Proofs.Script.Layout
import Scribe.Proofs.Script.DraftReading
import Scribe.Proofs.Run.LineMap
import Scribe.Proofs.Run.Diagnostics
import Scribe.Proofs.Script.LineShapes
import Scribe.Proofs.Run.Present
import Scribe.Proofs.Script.Joined
import Scribe.Proofs.Run.Renumbered
import Scribe.Proofs.Run.Joined
import Scribe.Proofs.Run.Nesting
import Scribe.Proofs.Run.Loops
import Scribe.Proofs.Instruction.Loops
import Scribe.Proofs.Run.Fallback
import Scribe.Proofs.Classifier.Models
import Scribe.Proofs.Run.Frame
import Scribe.Proofs.Classifier.Memory
import Scribe.Proofs.Run.Sharing
import Scribe.Proofs.Decimal.Range
import Scribe.Proofs.Datum.LongNumbers
import Scribe.Proofs.Run.Crashes
import Scribe.Proofs.Script.Prompts
import Scribe.Proofs.Run.Conditions
import Scribe.Proofs.Script.Headers
import Scribe.Proofs.Text.Standing
import Scribe.Proofs.Pattern.Words
import Scribe.Proofs.Pattern.Evaluation
import Scribe.Proofs.Pattern.Openings
import Scribe.Proofs.Instruction.PlainWords
import Scribe.Proofs.Instruction.Conditions
import Scribe.Proofs.Instruction.Clauses
import Scribe.Proofs.Instruction.Chains
import Scribe.Proofs.Instruction.Branches
import Scribe.Proofs.Instruction.QuotedConditions
import Scribe.Proofs.Script.ChainReading
import Scribe.Proofs.Script.QuotedReading
import Scribe.Proofs.Run.Branches
import Scribe.Proofs.Run.InlineArms
import Scribe.Proofs.Script.SingleValues
import Scribe.Proofs.Script.Powers
import Scribe.Proofs.Instruction.QuotedAssignments
import Scribe.Proofs.Run.QuotedAssignments
import Scribe.Proofs.Script.Rows
import Scribe.Proofs.Script.LineCover
import Scribe.Proofs.Script.Levels
import Scribe.Proofs.Script.Renumbering
import Scribe.Proofs.Script.Remarks
import Scribe.Proofs.Decimal.Order
import Scribe.Proofs.Value.Numerals
import Scribe.Proofs.Value.Comparison
import Scribe.Proofs.Value.Chains
import Scribe.Proofs.Script.Tails
import Scribe.Proofs.Run.Roles
import Scribe.Proofs.Run.RepeatedWords
import Scribe.Proofs.Script.Concatenation
import Scribe.Proofs.Run.Wrapping
import Scribe.Proofs.Evaluation.Cases
import Scribe.Proofs.Script.Statements
import Scribe.Proofs.Script.LineStarts
import Scribe.Proofs.Evaluation.Features
import Scribe.Proofs.Instruction.Cuts
import Scribe.Proofs.Instruction.Terms
