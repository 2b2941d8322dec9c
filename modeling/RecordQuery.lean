import RecordQuery.Text.Basic
import RecordQuery.Text.Blank
import RecordQuery.Number.Binary
import RecordQuery.Number.Decimal
import RecordQuery.Number.Reading
import RecordQuery.Json.Lexeme
import RecordQuery.Json.Document
import RecordQuery.Json.Basic
import RecordQuery.Json.Printer
import RecordQuery.Query.Operator
import RecordQuery.Query.Basic
import RecordQuery.Query.Token
import RecordQuery.Query.Lexer
import RecordQuery.Query.Fragment
import RecordQuery.Query.Error
import RecordQuery.Query.Parser
import RecordQuery.Query.Json
import RecordQuery.Calendar.Date
import RecordQuery.Calendar.DateTime
import RecordQuery.Calendar.Reading
import RecordQuery.Calendar.Instant
import RecordQuery.Calendar.Printing
import RecordQuery.Number.Lexicographic
import RecordQuery.Table
import RecordQuery.Value.Integer
import RecordQuery.Value.Basic
import RecordQuery.Mapping.Error
import RecordQuery.Mapping.Basic
import RecordQuery.Value.Json
import RecordQuery.Schema.Basic
import RecordQuery.Schema.Json
import RecordQuery.Compile.Error
import RecordQuery.Compile.Backend
import RecordQuery.Compile.Trace
import RecordQuery.Memory.Wildcard
import RecordQuery.Memory.Inequality
import RecordQuery.Memory.Predicate
import RecordQuery.Memory.Backend
import RecordQuery.Text.Uppercase
import RecordQuery.Calendar.ZoneOffset
import RecordQuery.Sql.Dialect
import RecordQuery.Sql.Names
import RecordQuery.Sql.Condition
import RecordQuery.Sql.Fragment
import RecordQuery.Record.Basic
import RecordQuery.Command.Basic
import RecordQuery.Command.Files
import RecordQuery.Command.Arguments
import RecordQuery.Main
import RecordQuery.Proofs.Text.Occurrence
import RecordQuery.Proofs.Text.Pieces
import RecordQuery.Proofs.Text.Digits
import RecordQuery.Proofs.Query.Tokens
import RecordQuery.Proofs.Query.Grammar
import RecordQuery.Proofs.Query.Fragment
import RecordQuery.Proofs.Compile.Nodes
import RecordQuery.Proofs.Memory.Chain
import RecordQuery.Proofs.Query.Display
import RecordQuery.Proofs.Sql.Precedence
import RecordQuery.Proofs.Compile.Recursion
import RecordQuery.Proofs.Memory.Wildcard
import RecordQuery.Proofs.Memory.Expression
import RecordQuery.Proofs.Value.Typing
import RecordQuery.Proofs.Value.Order
import RecordQuery.Proofs.Schema.Tables
import RecordQuery.Proofs.Sql.Like
import RecordQuery.Proofs.Compile.Comparisons
import RecordQuery.Proofs.Memory.Comparisons
import RecordQuery.Proofs.Schema.Backends
import RecordQuery.Proofs.Record.Fields
import RecordQuery.Proofs.Record.Typing
import RecordQuery.Proofs.Schema.Soundness
import RecordQuery.Proofs.Sql.Template
import RecordQuery.Proofs.Sql.Structure
import RecordQuery.Proofs.Sql.Literals
import RecordQuery.Proofs.Json.Writing
import RecordQuery.Proofs.Query.ReadBack
import RecordQuery.Proofs.Query.Quoting
import RecordQuery.Proofs.Query.Operators
import RecordQuery.Proofs.Query.Composition
import RecordQuery.Proofs.FirstError
import RecordQuery.Proofs.Calendar.Days
import RecordQuery.Proofs.Calendar.Seconds
import RecordQuery.Proofs.Sql.Zone
import RecordQuery.Proofs.Calendar.Readers
import RecordQuery.Proofs.Calendar.Literals
import RecordQuery.Proofs.Calendar.Agreement
import RecordQuery.Proofs.Calendar.Printing
import RecordQuery.Proofs.Command.Filter
import RecordQuery.Proofs.Compile.Outcomes
import RecordQuery.Proofs.Compile.Order
import RecordQuery.Proofs.Compile.Lists
import RecordQuery.Proofs.Compile.Dangling
import RecordQuery.Proofs.Query.Limits
import RecordQuery.Proofs.Query.Blanks
import RecordQuery.Proofs.Query.Errors
import RecordQuery.Proofs.Query.Tiling
import RecordQuery.Proofs.Memory.Opposites
import RecordQuery.Proofs.Memory.Trichotomy
import RecordQuery.Proofs.Memory.Membership
import RecordQuery.Proofs.Value.Integers
import RecordQuery.Proofs.Value.Display
import RecordQuery.Proofs.Record.Integers
import RecordQuery.Proofs.Record.Loading
import RecordQuery.Proofs.Schema.Agreement
import RecordQuery.Proofs.Command.Integers
import RecordQuery.Proofs.Command.Files
import RecordQuery.Proofs.Table
import RecordQuery.Proofs.Sql.Names
import RecordQuery.Proofs.Json.Parts
import RecordQuery.Proofs.Schema.ReadBack
import RecordQuery.Proofs.Query.Rounds
import RecordQuery.Proofs.Query.Parentheses
import RecordQuery.Proofs.Sql.QuotedNames
import RecordQuery.Proofs.Calendar.Range
