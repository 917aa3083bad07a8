import Rulebook.Attribute
import Rulebook.Calendar.Date
import Rulebook.Calendar.Pattern
import Rulebook.Coercion
import Rulebook.CommandLine.Arguments
import Rulebook.CommandLine.Help
import Rulebook.CommandLine.Run
import Rulebook.Compiler
import Rulebook.Decimal.Numeral
import Rulebook.Decimal.Shortest
import Rulebook.Evaluation.Execution
import Rulebook.Evaluation.Report
import Rulebook.Evaluation.Walk
import Rulebook.Export.Description
import Rulebook.Export.Markup
import Rulebook.Expression.Operand
import Rulebook.Expression.Reading
import Rulebook.Expression.Shape
import Rulebook.Json.Basic
import Rulebook.Json.Description
import Rulebook.Json.Number
import Rulebook.Json.Quoted
import Rulebook.Json.Reader
import Rulebook.Json.Record
import Rulebook.Json.Report
import Rulebook.Json.Rule
import Rulebook.Json.RuleSet
import Rulebook.Json.Shape
import Rulebook.Json.Sorted
import Rulebook.Json.Writer
import Rulebook.Main
import Rulebook.Markup.Attributes
import Rulebook.Markup.Element
import Rulebook.Markup.Event
import Rulebook.Markup.Token
import Rulebook.Operator.Phrase
import Rulebook.Operator.Registry
import Rulebook.Operator.Vocabulary
import Rulebook.Outline
import Rulebook.Proofs.Calendar.Marks
import Rulebook.Proofs.Calendar.Range
import Rulebook.Proofs.Coercion
import Rulebook.Proofs.Compiler.Content
import Rulebook.Proofs.Compiler.Growth
import Rulebook.Proofs.Compiler.Items
import Rulebook.Proofs.Compiler.Layout
import Rulebook.Proofs.Compiler.Numbering
import Rulebook.Proofs.Compiler.Order
import Rulebook.Proofs.Compiler.Refusals
import Rulebook.Proofs.Compiler.Session
import Rulebook.Proofs.Compiler.Sound
import Rulebook.Proofs.Compiler.Spelling
import Rulebook.Proofs.Compiler.WellFormed
import Rulebook.Proofs.Decimal.Digits
import Rulebook.Proofs.Decimal.WholePart
import Rulebook.Proofs.Evaluation.Again
import Rulebook.Proofs.Evaluation.Agreement
import Rulebook.Proofs.Evaluation.Arithmetic
import Rulebook.Proofs.Evaluation.Bounds
import Rulebook.Proofs.Evaluation.Conditions
import Rulebook.Proofs.Evaluation.DateOrder
import Rulebook.Proofs.Evaluation.Decision
import Rulebook.Proofs.Evaluation.Effect
import Rulebook.Proofs.Evaluation.Frame
import Rulebook.Proofs.Evaluation.Labels
import Rulebook.Proofs.Evaluation.Members
import Rulebook.Proofs.Evaluation.Membership
import Rulebook.Proofs.Evaluation.Operators
import Rulebook.Proofs.Evaluation.Opposite
import Rulebook.Proofs.Evaluation.Parts
import Rulebook.Proofs.Evaluation.Replay
import Rulebook.Proofs.Evaluation.Runs
import Rulebook.Proofs.Evaluation.Shape
import Rulebook.Proofs.Evaluation.Stops
import Rulebook.Proofs.Evaluation.Tour
import Rulebook.Proofs.Evaluation.Unchanged
import Rulebook.Proofs.Evaluation.Visiting
import Rulebook.Proofs.Export.Acceptance
import Rulebook.Proofs.Export.Elements
import Rulebook.Proofs.Export.Messages
import Rulebook.Proofs.Export.Outline
import Rulebook.Proofs.Export.Placing
import Rulebook.Proofs.Export.Rereading
import Rulebook.Proofs.Export.RoundTrip
import Rulebook.Proofs.Expression.Bounds
import Rulebook.Proofs.Expression.Calling
import Rulebook.Proofs.Expression.Clauses
import Rulebook.Proofs.Expression.Dates
import Rulebook.Proofs.Expression.Layout
import Rulebook.Proofs.Expression.Operands
import Rulebook.Proofs.Expression.Opposite
import Rulebook.Proofs.Expression.Rereading
import Rulebook.Proofs.Expression.WellFormed
import Rulebook.Proofs.Expression.Written
import Rulebook.Proofs.Json.Depth
import Rulebook.Proofs.Json.Descriptions
import Rulebook.Proofs.Json.Limit
import Rulebook.Proofs.Json.Reading
import Rulebook.Proofs.Json.Spelling
import Rulebook.Proofs.Json.Structures
import Rulebook.Proofs.Markup.Adding
import Rulebook.Proofs.Markup.Content
import Rulebook.Proofs.Markup.Cutting
import Rulebook.Proofs.Markup.Document
import Rulebook.Proofs.Markup.Nesting
import Rulebook.Proofs.Markup.Reading
import Rulebook.Proofs.Markup.Spelling
import Rulebook.Proofs.Markup.Tags
import Rulebook.Proofs.Operator.Binding
import Rulebook.Proofs.Operator.Finding
import Rulebook.Proofs.Operator.Negation
import Rulebook.Proofs.Operator.Registration
import Rulebook.Proofs.Operator.Reserved
import Rulebook.Proofs.Record.Cells
import Rulebook.Proofs.Record.Updating
import Rulebook.Proofs.Record.Writing
import Rulebook.Proofs.Store.History
import Rulebook.Proofs.Text.Escape
import Rulebook.Proofs.Text.Words
import Rulebook.Proofs.Tree.Index
import Rulebook.Record
import Rulebook.Refusal
import Rulebook.Rule
import Rulebook.RuleSet
import Rulebook.RuleTree
import Rulebook.Settings.Basic
import Rulebook.Settings.Conversion
import Rulebook.Settings.Engine
import Rulebook.Settings.File
import Rulebook.Settings.Value
import Rulebook.Settings.Way
import Rulebook.Store
import Rulebook.Table
import Rulebook.Text.Blank
import Rulebook.Text.Letter
import Rulebook.Text.Quoted
import Rulebook.Text.Reference
import Rulebook.Text.Visible
import Rulebook.Toml.Document
import Rulebook.Toml.Scalar
import Rulebook.Toml.Table
import Rulebook.Toml.Token
