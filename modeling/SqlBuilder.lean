import SqlBuilder.Text.Blank
import SqlBuilder.Text.Letters
import SqlBuilder.Text.Quoted
import SqlBuilder.Text.Digits
import SqlBuilder.Text.Hex
import SqlBuilder.Text.Utf8
import SqlBuilder.Number.Binary64
import SqlBuilder.Number.Shortest
import SqlBuilder.Number.Layout
import SqlBuilder.Timestamp
import SqlBuilder.Uuid
import SqlBuilder.Json.Basic
import SqlBuilder.Json.Numeral
import SqlBuilder.Json.Token
import SqlBuilder.Json.Document
import SqlBuilder.Value
import SqlBuilder.Error
import SqlBuilder.Expression
import SqlBuilder.Identifier
import SqlBuilder.Dialect
import SqlBuilder.Tuple
import SqlBuilder.Statement.Basic
import SqlBuilder.Statement.Draft
import SqlBuilder.Statement.Select
import SqlBuilder.Statement.Write
import SqlBuilder.Statement.Delete
import SqlBuilder.Compile.Sql
import SqlBuilder.Compile.Select
import SqlBuilder.Compile.Statement
import SqlBuilder.Connection.Level
import SqlBuilder.Connection.Settings
import SqlBuilder.Connection.Event
import SqlBuilder.Connection.Logger
import SqlBuilder.Connection.Request
import SqlBuilder.Connection.Basic
import SqlBuilder.Connection.Turn
import SqlBuilder.Connection.Script
import SqlBuilder.Connection.Tasks
import SqlBuilder.Proofs.Text.Lexeme
import SqlBuilder.Proofs.Text.Bracket
import SqlBuilder.Proofs.Text.Parts
import SqlBuilder.Proofs.Text.Grammar
import SqlBuilder.Proofs.Text.Trim
import SqlBuilder.Proofs.Json.Spelling
import SqlBuilder.Proofs.Json.ReadBack
import SqlBuilder.Proofs.Statement.Focus
import SqlBuilder.Proofs.Statement.Bracketing
import SqlBuilder.Proofs.Statement.Failure
import SqlBuilder.Proofs.Statement.ActiveJoin
import SqlBuilder.Proofs.Statement.Effect
import SqlBuilder.Proofs.Statement.Routing
import SqlBuilder.Proofs.Compile.Rendering
import SqlBuilder.Proofs.Compile.Placeholder
import SqlBuilder.Proofs.Compile.FreeMark
import SqlBuilder.Proofs.Compile.Name
import SqlBuilder.Proofs.Compile.Unquote
import SqlBuilder.Proofs.Compile.Literal
import SqlBuilder.Proofs.Compile.Mask
import SqlBuilder.Proofs.Compile.Chain
import SqlBuilder.Proofs.Compile.Balance
import SqlBuilder.Proofs.Compile.Tree
import SqlBuilder.Proofs.Compile.Acceptance
import SqlBuilder.Proofs.Compile.Given
import SqlBuilder.Proofs.Compile.Supply
import SqlBuilder.Proofs.Compile.WireForm
import SqlBuilder.Proofs.Compile.WindowClause
import SqlBuilder.Proofs.Compile.Page
import SqlBuilder.Proofs.Compile.InsertRows
import SqlBuilder.Proofs.Compile.Document
import SqlBuilder.Proofs.Statement.OrderedMap
import SqlBuilder.Proofs.Statement.Family
import SqlBuilder.Proofs.Statement.Grouping
import SqlBuilder.Proofs.Compile.Membership
import SqlBuilder.Proofs.Connection.Interleaving
import SqlBuilder.Proofs.Connection.Ledger
import SqlBuilder.Proofs.Connection.GeneratedId
import SqlBuilder.Proofs.Connection.RoundRobin
import SqlBuilder.Proofs.Connection.Fate
import SqlBuilder.Proofs.Connection.Wrapping
import SqlBuilder.Proofs.Connection.SoleInsert
import SqlBuilder.Proofs.Connection.ExplicitTransaction
import SqlBuilder.Proofs.Connection.FlagTracking
import SqlBuilder.Proofs.Connection.UpdateOnly
import SqlBuilder.Proofs.Connection.Conduct
import SqlBuilder.Proofs.Connection.FirstRow
import SqlBuilder.Proofs.Connection.Truncation
import SqlBuilder.Proofs.Connection.SettingsDocument
