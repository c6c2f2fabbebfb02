import Columnar.Text.Blank
import Columnar.Text.Digit
import Columnar.Text.Lower
import Columnar.Text.Printable
import Columnar.Text.Quoted
import Columnar.Number.Decimal
import Columnar.Number.Binary64
import Columnar.Calendar.Date
import Columnar.Calendar.DateTime
import Columnar.Value.Basic
import Columnar.Value.Equality
import Columnar.Value.Reading
import Columnar.Value.Text
import Columnar.Error
import Columnar.Traced
import Columnar.Value.Json
import Columnar.Column
import Columnar.Literal.Typing
import Columnar.Literal.Serial
import Columnar.Expr.Basic
import Columnar.Expr.Inspect
import Columnar.Expr.Operators
import Columnar.Expr.Named
import Columnar.Expr.Render
import Columnar.Expr.Signature
import Columnar.Keyed
import Columnar.Checked
import Columnar.Table
import Columnar.Query.Basic
import Columnar.Text.Keyword
import Columnar.Query.JoinKeyword
import Columnar.Query.Build
import Columnar.Statement.AliasResolution
import Columnar.Statement.Setting
import Columnar.Statement.Inline
import Columnar.Statement.Compile
import Columnar.Fingerprint
import Columnar.Session
import Columnar.Relation.Catalog
import Columnar.Template.Cache
import Columnar.Client.Basic
import Columnar.Client.Script
import Columnar.Template.Prepared
import Columnar.Fetch.Options
import Columnar.Fetch.Plan
import Columnar.Fetch.Select
import Columnar.Fetch.Objects
import Columnar.Fetch.Merge
import Columnar.Fetch.Engine
import Columnar.Mutation.Basic
import Columnar.Mutation.Wait
import Columnar.Connection
import Columnar.Query.Override
import Columnar.Schema.Community
import Columnar.Proofs.Numbering
import Columnar.Proofs.Fetch.Entity
import Columnar.Proofs.Lockstep
import Columnar.Proofs.Parts
import Columnar.Proofs.Pieces
import Columnar.Proofs.Sessions
import Columnar.Proofs.Templates
import Columnar.Proofs.Transparency
import Columnar.Proofs.Fetch.Named
import Columnar.Proofs.Fetch.Planned
import Columnar.Proofs.Fetch.Parts
import Columnar.Proofs.Fetch.Union
import Columnar.Proofs.Fetch.Whole
import Columnar.Proofs.Fetch.RoundTrip
import Columnar.Proofs.Keys.Splitting
import Columnar.Proofs.Keys.Lexemes
import Columnar.Proofs.Keys.Composed
import Columnar.Proofs.Keys.Alike
import Columnar.Proofs.Keys.Segments
import Columnar.Proofs.Keys.Counting
import Columnar.Proofs.Keys.Legible
import Columnar.Proofs.Keys.Soundness
import Columnar.Proofs.Placeholders.Outline
import Columnar.Proofs.Fetch.Format
import Columnar.Proofs.Placeholders.Contents
import Columnar.Proofs.Placeholders.Expressions
import Columnar.Proofs.Placeholders.OnePass
import Columnar.Proofs.Cache.Entries
import Columnar.Proofs.Cache.Recency
import Columnar.Proofs.Fetch.Run
import Columnar.Proofs.Fetch.Paging
import Columnar.Proofs.Structure.Resembles
import Columnar.Proofs.Structure.Template
import Columnar.Proofs.Number.Rounding
import Columnar.Proofs.Number.Digits
import Columnar.Proofs.Number.Spelling
import Columnar.Proofs.Number.DecimalText
import Columnar.Proofs.Number.Shortest
import Columnar.Proofs.Calendar.Civil
import Columnar.Proofs.Calendar.Epoch
import Columnar.Proofs.Calendar.Written
import Columnar.Proofs.Text.Quoting
import Columnar.Proofs.Value.Inspect
import Columnar.Proofs.Identity.Grouping
import Columnar.Proofs.Identity.Entities
import Columnar.Proofs.Mutation.Exchange
import Columnar.Proofs.Mutation.Dispatch
import Columnar.Proofs.Mutation.Completion
import Columnar.Proofs.DerivedTable
import Columnar.Proofs.Keys.Hints
import Columnar.Proofs.Cache.Hints
import Columnar.Proofs.Cache.Inclusion
import Columnar.Proofs.Cache.Lookups
import Columnar.Proofs.Cache.Binding
import Columnar.Proofs.Undefined.Values
import Columnar.Proofs.Undefined.Supplied
import Columnar.Proofs.Undefined.Requests
import Columnar.Proofs.Mutation.Statement
import Columnar.Proofs.Chains.Marks
import Columnar.Proofs.Chains.Calls
import Columnar.Proofs.Chains.SourcePosition
import Columnar.Proofs.Fetch.Collection
import Columnar.Proofs.Fetch.Limits
import Columnar.Proofs.Fetch.Joining
import Columnar.Proofs.Fetch.Rebuilt
import Columnar.Proofs.Fetch.Incremental
import Columnar.Proofs.Logic.Reading
import Columnar.Proofs.Logic.Meaning
import Columnar.Proofs.Fetch.Resolved
import Columnar.Proofs.Fetch.Scoped
import Columnar.Proofs.Fetch.Found
import Columnar.Proofs.Fetch.Collected
import Columnar.Proofs.Fetch.Bundled
import Columnar.Proofs.Calendar.Gregorian
import Columnar.Proofs.Calendar.Stamp
import Columnar.Proofs.Literal.Shapes
import Columnar.Proofs.Literal.Types
import Columnar.Proofs.Mutation.Waiting
import Columnar.Proofs.Naming
import Columnar.Proofs.Text.Setting
import Columnar.Proofs.Structure.Reordered
import Columnar.Proofs.Text.Words
import Columnar.Proofs.Ordering
import Columnar.Proofs.Placeholders.References
import Columnar.Proofs.Placeholders.Carried
import Columnar.Proofs.Placeholders.Verbatim
import Columnar.Proofs.Placeholders.Inlined
import Columnar.Proofs.Traversal
import Columnar.Proofs.Fetch.Requested
