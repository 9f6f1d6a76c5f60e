import EntityApi.Api
import EntityApi.CommandLine
import EntityApi.CommandLine.Arguments
import EntityApi.DateScalar
import EntityApi.Entity.Basic
import EntityApi.Entity.Declaration
import EntityApi.Entries
import EntityApi.Export
import EntityApi.Failure
import EntityApi.FileTree
import EntityApi.Filter.Compile
import EntityApi.Filter.Condition
import EntityApi.Json
import EntityApi.Like
import EntityApi.Log
import EntityApi.Main
import EntityApi.Manifest
import EntityApi.Model
import EntityApi.Number.Binary64
import EntityApi.Number.Decimal
import EntityApi.Number.Exact
import EntityApi.Number.Numeral
import EntityApi.Number.Rounded
import EntityApi.Number.Shortest
import EntityApi.Operation
import EntityApi.Proofs.Acceptance
import EntityApi.Proofs.Calls
import EntityApi.Proofs.Coverage
import EntityApi.Proofs.Filter.Grammar
import EntityApi.Proofs.Filter.Ranges
import EntityApi.Proofs.Filter.Searches
import EntityApi.Proofs.Like.Expressions
import EntityApi.Proofs.OperationLists
import EntityApi.Proofs.OperationNames
import EntityApi.Proofs.Results
import EntityApi.Proofs.Sql.Clauses
import EntityApi.Proofs.Sql.Commits
import EntityApi.Proofs.Sql.Discipline
import EntityApi.Proofs.Sql.Engine
import EntityApi.Proofs.Sql.Filtering
import EntityApi.Proofs.Sql.Placeholders
import EntityApi.Proofs.Sql.Refusals
import EntityApi.Proofs.Sql.Texts
import EntityApi.Proofs.Sql.Visits
import EntityApi.Proofs.Sql.Bindings
import EntityApi.Proofs.Steps
import EntityApi.Proofs.Store.FreshKeys
import EntityApi.Proofs.Store.Keys
import EntityApi.Proofs.Store.Ledger
import EntityApi.Proofs.Store.Ordering
import EntityApi.Proofs.Store.Paging
import EntityApi.Proofs.Store.Served
import EntityApi.Proofs.Tables
import EntityApi.Proofs.Text.Blanks
import EntityApi.Proofs.Value.Equality
import EntityApi.Proofs.Value.Order
import EntityApi.Registry
import EntityApi.Resolver
import EntityApi.Scalar
import EntityApi.Schema.Document
import EntityApi.Schema.Extension
import EntityApi.Schema.Signature
import EntityApi.Service
import EntityApi.Service.Router
import EntityApi.Settings
import EntityApi.Sql.Link
import EntityApi.Sql.Statement
import EntityApi.Sql.Store
import EntityApi.Store.Memory
import EntityApi.Store.Session
import EntityApi.Template
import EntityApi.Text.Blank
import EntityApi.Text.Digit
import EntityApi.Text.Printable
import EntityApi.Text.Quoted
import EntityApi.Text.UpperCase
import EntityApi.Text.Utf8
import EntityApi.Time.Calendar
import EntityApi.Time.Iso
import EntityApi.Time.Moment
import EntityApi.Uuid
import EntityApi.Value.Basic
import EntityApi.Value.Compare
import EntityApi.Value.Layout
import EntityApi.Value.Shown
import EntityApi.Value.ToJson
import EntityApi.Value.Whole
import EntityApi.Warehouse
import EntityApi.Yaml.Binary
import EntityApi.Yaml.Content
import EntityApi.Yaml.Cursor
import EntityApi.Yaml.Fault
import EntityApi.Yaml.Node
import EntityApi.Yaml.Node.Compose
import EntityApi.Yaml.Tag
import EntityApi.Yaml.Token
import EntityApi.Yaml.Token.Lexer
import EntityApi.Yaml.Token.Scalar
import EntityApi.Yaml.Token.Word
import EntityApi.Proofs.Value.Texts
import EntityApi.Proofs.Introspection
import EntityApi.Proofs.Precedence
import EntityApi.Proofs.Isolation
import EntityApi.Proofs.Readback
import EntityApi.Proofs.Number.PlainNumerals
import EntityApi.Proofs.Time.Calendar
import EntityApi.Proofs.Time.EpochMillis
import EntityApi.Proofs.Time.IsoText
import EntityApi.Proofs.Commands
import EntityApi.Proofs.Exchanges
import EntityApi.Proofs.Registry.Faults
import EntityApi.Proofs.Schema.Recitals
import EntityApi.Proofs.Time.Reach
import EntityApi.Proofs.Sql.Admitted
import EntityApi.Proofs.Sql.Creations
import EntityApi.Proofs.Sql.Listings
import EntityApi.Proofs.Store.Ranking
import EntityApi.Proofs.Store.Updates
import EntityApi.Proofs.Text.UpperCase
import EntityApi.Proofs.StorageTypes
import EntityApi.Proofs.Commands.Faults
