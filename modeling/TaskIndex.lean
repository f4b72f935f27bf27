import TaskIndex.CacheError
import TaskIndex.Calendar.Date
import TaskIndex.Calendar.DateText
import TaskIndex.Change.Batch
import TaskIndex.Change.Operation
import TaskIndex.CommandLine.Arguments
import TaskIndex.CommandLine.Grammar
import TaskIndex.CommandLine.Help
import TaskIndex.Document.Basic
import TaskIndex.Document.Json
import TaskIndex.Document.JsonText
import TaskIndex.Document.Reading
import TaskIndex.Document.Toml
import TaskIndex.Document.Toml.Quoted
import TaskIndex.Document.Toml.Scalar
import TaskIndex.Document.Toml.Tree
import TaskIndex.Failure
import TaskIndex.IdSet
import TaskIndex.Index.Basic
import TaskIndex.Index.Change
import TaskIndex.Index.Facet
import TaskIndex.Index.Lookup
import TaskIndex.Index.Plan
import TaskIndex.Index.Stats
import TaskIndex.Main
import TaskIndex.Number.Binary64
import TaskIndex.Number.Stepwise
import TaskIndex.Query.Compact
import TaskIndex.Query.Field
import TaskIndex.Query.Matching
import TaskIndex.Query.Operand
import TaskIndex.Query.Order
import TaskIndex.Query.Page
import TaskIndex.Query.Predicate
import TaskIndex.Query.Property
import TaskIndex.Query.Spelling
import TaskIndex.Record.Change
import TaskIndex.Record.Query
import TaskIndex.Record.Report
import TaskIndex.Record.Task
import TaskIndex.Router.Answer
import TaskIndex.Router.Basic
import TaskIndex.Router.Overlap
import TaskIndex.Router.Route
import TaskIndex.Router.Traffic
import TaskIndex.Run
import TaskIndex.Settings.Basic
import TaskIndex.Settings.Layer
import TaskIndex.Settings.Overlay
import TaskIndex.Settings.Reading
import TaskIndex.Shard.Basic
import TaskIndex.Shard.Mailbox
import TaskIndex.Snapshot
import TaskIndex.SortedSet
import TaskIndex.Source
import TaskIndex.Store
import TaskIndex.Task.Basic
import TaskIndex.Task.Problem
import TaskIndex.Task.ShardKey
import TaskIndex.Task.Vocabulary
import TaskIndex.Text.Blank
import TaskIndex.Text.Case.Cased
import TaskIndex.Text.Case.Ignorable
import TaskIndex.Text.Case.Lower
import TaskIndex.Text.Lowercase
import TaskIndex.Text.Numeral
import TaskIndex.Text.Split
import TaskIndex.Proofs.Calendar.DateText
import TaskIndex.Proofs.Document.Json
import TaskIndex.Proofs.Document.JsonParts
import TaskIndex.Proofs.Document.Reading
import TaskIndex.Proofs.IdSet
import TaskIndex.Proofs.IdSet.Calls
import TaskIndex.Proofs.IdSet.Growth
import TaskIndex.Proofs.Index.Bucket
import TaskIndex.Proofs.Index.Bulk
import TaskIndex.Proofs.Index.Coverage
import TaskIndex.Proofs.Index.Facet
import TaskIndex.Proofs.Index.Filter
import TaskIndex.Proofs.Index.Integrity
import TaskIndex.Proofs.Index.Leftover
import TaskIndex.Proofs.Index.Plan
import TaskIndex.Proofs.Index.Rebuild
import TaskIndex.Proofs.Index.Redelivery
import TaskIndex.Proofs.Index.Revision
import TaskIndex.Proofs.Index.Slots
import TaskIndex.Proofs.Query.FirstOperator
import TaskIndex.Proofs.Query.Order
import TaskIndex.Proofs.Query.Paging
import TaskIndex.Proofs.Record.RoundTrip
import TaskIndex.Proofs.Router.Account
import TaskIndex.Proofs.Router.Agreement
import TaskIndex.Proofs.Router.Convergence
import TaskIndex.Proofs.Router.Day
import TaskIndex.Proofs.Router.Foresight
import TaskIndex.Proofs.Router.Front
import TaskIndex.Proofs.Router.History
import TaskIndex.Proofs.Router.Lifecycle
import TaskIndex.Proofs.Router.Mirror
import TaskIndex.Proofs.Router.Overlap
import TaskIndex.Proofs.Router.Progress
import TaskIndex.Proofs.Router.Reach
import TaskIndex.Proofs.Router.Route
import TaskIndex.Proofs.Router.Service
import TaskIndex.Proofs.Router.Start
import TaskIndex.Proofs.Router.Target
import TaskIndex.Proofs.Router.Traffic
import TaskIndex.Proofs.Router.Waiting
import TaskIndex.Proofs.Run
import TaskIndex.Proofs.Settings.Choices
import TaskIndex.Proofs.Settings.Layer
import TaskIndex.Proofs.Settings.Overlay
import TaskIndex.Proofs.Shard.Due
import TaskIndex.Proofs.Shard.Mailbox
import TaskIndex.Proofs.Shard.Outlook
import TaskIndex.Proofs.Shard.Turn
import TaskIndex.Proofs.Snapshot
import TaskIndex.Proofs.SortedSet
import TaskIndex.Proofs.Store
import TaskIndex.Proofs.Text.Blank
import TaskIndex.Proofs.Text.Numeral
import TaskIndex.Proofs.Text.Split
import TaskIndex.Proofs.Query.Spelling
import TaskIndex.Proofs.Query.Range
import TaskIndex.Proofs.CommandLine.PageFlags
