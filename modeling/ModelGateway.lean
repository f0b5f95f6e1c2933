import ModelGateway.Client.Basic
import ModelGateway.Client.Error
import ModelGateway.Client.Fault
import ModelGateway.Client.Operation
import ModelGateway.Client.RawValue
import ModelGateway.Client.Script
import ModelGateway.CommandLine.Program
import ModelGateway.CommandLine.Shell
import ModelGateway.Document.Basic
import ModelGateway.Document.Decode
import ModelGateway.Document.Error
import ModelGateway.Document.Key
import ModelGateway.Document.Validate
import ModelGateway.Gateway.Body
import ModelGateway.Gateway.Request
import ModelGateway.Gateway.Resolve
import ModelGateway.Gateway.Schema
import ModelGateway.Gateway.Types
import ModelGateway.Json.AnyDouble
import ModelGateway.Json.Basic
import ModelGateway.Json.Decimal
import ModelGateway.Json.Double
import ModelGateway.Json.Entries
import ModelGateway.Json.Number
import ModelGateway.Json.Printer
import ModelGateway.Json.Reader
import ModelGateway.Json.Shape
import ModelGateway.Json.Source
import ModelGateway.Json.Word
import ModelGateway.Main
import ModelGateway.Proofs.Document.WellFormed
import ModelGateway.Proofs.Except
import ModelGateway.Proofs.Gateway.Dispatch
import ModelGateway.Proofs.Gateway.Relation
import ModelGateway.Proofs.Gateway.Roots
import ModelGateway.Proofs.Gateway.Schema
import ModelGateway.Proofs.Json.Entries
import ModelGateway.Proofs.Json.Range
import ModelGateway.Proofs.Json.RoundTrip
import ModelGateway.Proofs.Json.Rounding
import ModelGateway.Proofs.Json.WellFormed
import ModelGateway.Proofs.Query.Execution
import ModelGateway.Proofs.Query.Reader
import ModelGateway.Proofs.Query.Token
import ModelGateway.Proofs.Record.Aggregate
import ModelGateway.Proofs.Record.Distinct
import ModelGateway.Proofs.Record.Equality
import ModelGateway.Proofs.Record.Extremes
import ModelGateway.Proofs.Record.Groups
import ModelGateway.Proofs.Record.Numbers
import ModelGateway.Proofs.Record.Ordering
import ModelGateway.Proofs.Record.Paging
import ModelGateway.Proofs.Record.Partition
import ModelGateway.Proofs.Record.SortKey
import ModelGateway.Proofs.Record.Sorting
import ModelGateway.Proofs.Record.Sum
import ModelGateway.Proofs.Record.Where
import ModelGateway.Proofs.Schema.AggregateSelection
import ModelGateway.Proofs.Schema.Aggregation
import ModelGateway.Proofs.Schema.Catalog
import ModelGateway.Proofs.Schema.Definition
import ModelGateway.Proofs.Schema.Dispatch
import ModelGateway.Proofs.Schema.Identifying
import ModelGateway.Proofs.Schema.RawResult
import ModelGateway.Proofs.Schema.RecordKey
import ModelGateway.Proofs.Schema.Routing
import ModelGateway.Proofs.Service.Access
import ModelGateway.Proofs.Service.Envelope
import ModelGateway.Proofs.Service.Key
import ModelGateway.Proofs.Store.Arithmetic
import ModelGateway.Proofs.Store.Ascent
import ModelGateway.Proofs.Store.Assignment
import ModelGateway.Proofs.Store.Atomic
import ModelGateway.Proofs.Store.Clash
import ModelGateway.Proofs.Store.Columns
import ModelGateway.Proofs.Store.Connection
import ModelGateway.Proofs.Store.Contents
import ModelGateway.Proofs.Store.Counter
import ModelGateway.Proofs.Store.CounterLog
import ModelGateway.Proofs.Store.Counts
import ModelGateway.Proofs.Store.Course
import ModelGateway.Proofs.Store.Creation
import ModelGateway.Proofs.Store.Delegate
import ModelGateway.Proofs.Store.Deletion
import ModelGateway.Proofs.Store.Demand
import ModelGateway.Proofs.Store.Distinct
import ModelGateway.Proofs.Store.Failure
import ModelGateway.Proofs.Store.Frame
import ModelGateway.Proofs.Store.Identity
import ModelGateway.Proofs.Store.Independence
import ModelGateway.Proofs.Store.Join
import ModelGateway.Proofs.Store.Nulls
import ModelGateway.Proofs.Store.Numbering
import ModelGateway.Proofs.Store.Order
import ModelGateway.Proofs.Store.Outcome
import ModelGateway.Proofs.Store.Pages
import ModelGateway.Proofs.Store.Records
import ModelGateway.Proofs.Store.Relation
import ModelGateway.Proofs.Store.RelationWhere
import ModelGateway.Proofs.Store.Repetition
import ModelGateway.Proofs.Store.Required
import ModelGateway.Proofs.Store.Reread
import ModelGateway.Proofs.Store.Run
import ModelGateway.Proofs.Store.Select
import ModelGateway.Proofs.Store.Sound
import ModelGateway.Proofs.Store.Table
import ModelGateway.Proofs.Store.TextColumn
import ModelGateway.Proofs.Store.Uniqueness
import ModelGateway.Proofs.Store.Unordered
import ModelGateway.Proofs.Store.Values
import ModelGateway.Proofs.Store.WriteBack
import ModelGateway.Query.Answer
import ModelGateway.Query.Executable
import ModelGateway.Query.Execution
import ModelGateway.Query.Expansion
import ModelGateway.Query.Introspection
import ModelGateway.Query.Reader
import ModelGateway.Query.Token
import ModelGateway.Query.TypeSystem
import ModelGateway.Query.Validation
import ModelGateway.Record.Aggregate
import ModelGateway.Record.Compare
import ModelGateway.Record.Filter
import ModelGateway.Record.Page
import ModelGateway.Record.Sort
import ModelGateway.Schema.AggregateSelection
import ModelGateway.Schema.Catalog
import ModelGateway.Schema.Definition
import ModelGateway.Schema.Error
import ModelGateway.Schema.Limits
import ModelGateway.Schema.RawResult
import ModelGateway.Schema.Relation
import ModelGateway.Schema.Route
import ModelGateway.Service.Address
import ModelGateway.Service.App
import ModelGateway.Service.Config
import ModelGateway.Service.Envelope
import ModelGateway.Service.Http
import ModelGateway.Service.Load
import ModelGateway.Service.Metrics
import ModelGateway.Service.Startup
import ModelGateway.Settings.Environment
import ModelGateway.Settings.Format
import ModelGateway.Settings.Path
import ModelGateway.Settings.Setting
import ModelGateway.Settings.Toml.Node
import ModelGateway.Settings.Toml.Quoted
import ModelGateway.Settings.Toml.Reader
import ModelGateway.Settings.Toml.Scalar
import ModelGateway.Store.Basic
import ModelGateway.Store.Client
import ModelGateway.Store.Execute
import ModelGateway.Store.Read
import ModelGateway.Store.Table
import ModelGateway.Store.Write
import ModelGateway.Text.Blank
import ModelGateway.Text.CaseTable
import ModelGateway.Text.Hex
import ModelGateway.Text.Lower
import ModelGateway.Time.Calendar
import ModelGateway.Time.Instant
