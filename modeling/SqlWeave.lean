import SqlWeave.Calendar
import SqlWeave.Casing.Rows
import SqlWeave.Casing.Words
import SqlWeave.Database.Connection
import SqlWeave.Database.Query
import SqlWeave.Database.Transaction
import SqlWeave.Fault
import SqlWeave.Live.Call
import SqlWeave.Live.KeyFile
import SqlWeave.Live.Manager
import SqlWeave.Live.ResultSet
import SqlWeave.Live.State
import SqlWeave.Live.Tunnel
import SqlWeave.Memory.Backend
import SqlWeave.Memory.Rule
import SqlWeave.Number.Binary64
import SqlWeave.Number.Decimal
import SqlWeave.Number.Digits
import SqlWeave.Proofs.Casing.Columns
import SqlWeave.Proofs.Casing.Names
import SqlWeave.Proofs.Casing.Words
import SqlWeave.Proofs.Latest
import SqlWeave.Proofs.Layout.Boundaries
import SqlWeave.Proofs.Layout.Endent
import SqlWeave.Proofs.Layout.Lines
import SqlWeave.Proofs.Layout.Quotes
import SqlWeave.Proofs.Live.Accounts
import SqlWeave.Proofs.Live.Alignment
import SqlWeave.Proofs.Live.Attempt
import SqlWeave.Proofs.Live.Books
import SqlWeave.Proofs.Live.Clients
import SqlWeave.Proofs.Live.Closing
import SqlWeave.Proofs.Live.Contract
import SqlWeave.Proofs.Live.Custody
import SqlWeave.Proofs.Live.Disconnecting
import SqlWeave.Proofs.Live.Disturbed
import SqlWeave.Proofs.Live.Encounters
import SqlWeave.Proofs.Live.Establishing
import SqlWeave.Proofs.Live.Failures
import SqlWeave.Proofs.Live.Interleaving
import SqlWeave.Proofs.Live.Interruption
import SqlWeave.Proofs.Live.Lifetime
import SqlWeave.Proofs.Live.Linked
import SqlWeave.Proofs.Live.Managed
import SqlWeave.Proofs.Live.Opening
import SqlWeave.Proofs.Live.Operations
import SqlWeave.Proofs.Live.Orderly
import SqlWeave.Proofs.Live.Outstanding
import SqlWeave.Proofs.Live.Safety
import SqlWeave.Proofs.Live.Sequence
import SqlWeave.Proofs.Live.SingleFlight
import SqlWeave.Proofs.Live.Survey
import SqlWeave.Proofs.Live.TakeDown
import SqlWeave.Proofs.Live.Threads
import SqlWeave.Proofs.Live.Traces
import SqlWeave.Proofs.Live.Transitions
import SqlWeave.Proofs.Live.Tunneled
import SqlWeave.Proofs.Live.Turns
import SqlWeave.Proofs.Live.Waiting
import SqlWeave.Proofs.Live.Wrapping
import SqlWeave.Proofs.Memory.Answers
import SqlWeave.Proofs.Memory.Endings
import SqlWeave.Proofs.Memory.Histories
import SqlWeave.Proofs.Memory.Operations
import SqlWeave.Proofs.Number.Numeral
import SqlWeave.Proofs.Results
import SqlWeave.Proofs.Scan.Agreement
import SqlWeave.Proofs.Scan.Binding
import SqlWeave.Proofs.Scan.Joining
import SqlWeave.Proofs.Scan.Literal
import SqlWeave.Proofs.Scan.Mode
import SqlWeave.Proofs.Scan.Numbers
import SqlWeave.Proofs.Scan.Pieces
import SqlWeave.Proofs.Scan.Regions
import SqlWeave.Proofs.Scan.Scoping
import SqlWeave.Proofs.Scan.Separators
import SqlWeave.Proofs.Script.Causes
import SqlWeave.Proofs.Script.Emission
import SqlWeave.Proofs.Script.Lexing
import SqlWeave.Proofs.Script.LineEnds
import SqlWeave.Proofs.Script.Numerals
import SqlWeave.Proofs.Script.Quoting
import SqlWeave.Proofs.Script.Reading
import SqlWeave.Proofs.Script.References
import SqlWeave.Proofs.Script.Rendering
import SqlWeave.Proofs.Script.Running
import SqlWeave.Proofs.Script.Spelling
import SqlWeave.Proofs.Script.Trees
import SqlWeave.Proofs.Settings.Checks
import SqlWeave.Proofs.Settings.Overrides
import SqlWeave.Proofs.Settings.Precedence
import SqlWeave.Proofs.Template.Acceptance
import SqlWeave.Proofs.Template.Correctness
import SqlWeave.Proofs.Template.Evaluation
import SqlWeave.Proofs.Template.Faults
import SqlWeave.Proofs.Template.Grammar
import SqlWeave.Proofs.Template.Limits
import SqlWeave.Proofs.Template.Origins
import SqlWeave.Proofs.Template.Outline
import SqlWeave.Proofs.Template.Provocation
import SqlWeave.Proofs.Template.Recency
import SqlWeave.Proofs.Template.Untagged
import SqlWeave.Proofs.Template.Words
import SqlWeave.Proofs.Text.Digits
import SqlWeave.Proofs.Text.Escapes
import SqlWeave.Proofs.Text.Runs
import SqlWeave.Proofs.Value.Entries
import SqlWeave.Routine
import SqlWeave.Scheduler
import SqlWeave.Script.Assembly
import SqlWeave.Script.Instruction
import SqlWeave.Script.Run
import SqlWeave.Script.Token
import SqlWeave.Script.Tree
import SqlWeave.Session.Command
import SqlWeave.Session.Run
import SqlWeave.Session.Tunnel
import SqlWeave.Settings.Coercion
import SqlWeave.Settings.Complaint
import SqlWeave.Settings.Database
import SqlWeave.Settings.QueryConfig
import SqlWeave.Settings.Source
import SqlWeave.Settings.Tunnel
import SqlWeave.Sql.Identifier
import SqlWeave.Sql.Literal
import SqlWeave.Sql.Region
import SqlWeave.Sql.Skeleton
import SqlWeave.Sql.Statement
import SqlWeave.Store
import SqlWeave.Template.Cache
import SqlWeave.Template.Compiled
import SqlWeave.Template.Directive
import SqlWeave.Template.Tag
import SqlWeave.Text.Case
import SqlWeave.Text.CharClass
import SqlWeave.Text.Escape
import SqlWeave.Text.Json
import SqlWeave.Text.Pattern
import SqlWeave.Text.PatternReader
import SqlWeave.Text.Printable
import SqlWeave.Text.Utf8
import SqlWeave.Value.Basic
import SqlWeave.Value.Display
import SqlWeave.Proofs.Template.Texts
import SqlWeave.Proofs.Live.Blocks
import SqlWeave.Proofs.Layout.Content
import SqlWeave.Proofs.Quoting.Identifiers
import SqlWeave.Proofs.Quoting.Groups
import SqlWeave.Proofs.Quoting.Paths
import SqlWeave.Proofs.Memory.Transcripts
