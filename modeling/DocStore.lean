import DocStore.Main
import DocStore.Pipeline.Description
import DocStore.Relational.Listing
import DocStore.Proofs.Timestamp
import DocStore.Proofs.Config
import DocStore.Proofs.Double.Monotone
import DocStore.Proofs.Double.Rounding
import DocStore.Proofs.Double.Shortest
import DocStore.Proofs.Double.Whole
import DocStore.Proofs.Fields
import DocStore.Proofs.FileTree
import DocStore.Proofs.CommandLine.Arguments
import DocStore.Proofs.Json.Equality
import DocStore.Proofs.Json.Grammar
import DocStore.Proofs.Json.NumberText
import DocStore.Proofs.Json.Reading
import DocStore.Proofs.Json.Reordering
import DocStore.Proofs.Json.RoundTrip
import DocStore.Proofs.Json.StringText
import DocStore.Proofs.Json.Tokens
import DocStore.Proofs.Json.Transitivity
import DocStore.Proofs.Json.Tree
import DocStore.Proofs.Json.WellFormed
import DocStore.Proofs.Pipeline.Grammar
import DocStore.Proofs.Pipeline.Grouping
import DocStore.Proofs.Pipeline.Integers
import DocStore.Proofs.Pipeline.Order
import DocStore.Proofs.Pipeline.Projection
import DocStore.Proofs.Pipeline.Sampling
import DocStore.Proofs.Pipeline.Sorting
import DocStore.Proofs.Pipeline.StableSort
import DocStore.Proofs.Pipeline.Tallies
import DocStore.Proofs.Pipeline.Totals
import DocStore.Proofs.Record
import DocStore.Proofs.Record.ReservedLast
import DocStore.Proofs.RecordFile
import DocStore.Proofs.Validation.Check
import DocStore.Proofs.Validation.Integrity
import DocStore.Proofs.Validation.Report
import DocStore.Proofs.Validation.Reserved
import DocStore.Proofs.Validation.Sanitize
import DocStore.Proofs.Validation.Scan
import DocStore.Proofs.Validation.Stability
import DocStore.Proofs.Validation.Verdict
import DocStore.Proofs.Schema.Codec
import DocStore.Proofs.Schema.Described
import DocStore.Proofs.Schema.Rereading
import DocStore.Proofs.Schema.Stability
import DocStore.Proofs.Yaml.Reading
import DocStore.Proofs.Relational.Statement
import DocStore.Proofs.Relational.Table
import DocStore.Proofs.Relational.Conversion
import DocStore.Proofs.Relational.Insertion
import DocStore.Proofs.Collection.Conforming
import DocStore.Proofs.Collection.Effect
import DocStore.Proofs.Collection.Identity
import DocStore.Proofs.Collection.Integrity
import DocStore.Proofs.Collection.Layout
import DocStore.Proofs.Collection.Lifecycle
import DocStore.Proofs.Collection.Loading
import DocStore.Proofs.Collection.Merging
import DocStore.Proofs.Collection.Payloads
import DocStore.Proofs.Collection.Persistence
import DocStore.Proofs.Collection.Reopening
import DocStore.Proofs.Collection.Replay
import DocStore.Proofs.Collection.Resaving
import DocStore.Proofs.Collection.Rewriting
import DocStore.Proofs.Collection.Run
import DocStore.Proofs.Collection.Timestamps
import DocStore.Proofs.Collection.Uniqueness
import DocStore.Proofs.Collection.Upsert
import DocStore.Proofs.Collection.Writing
import DocStore.Proofs.Store.Ahead
import DocStore.Proofs.Store.Handles
import DocStore.Proofs.Store.Isolation
import DocStore.Proofs.Store.Names
import DocStore.Proofs.Store.Requests
import DocStore.Proofs.Store.Status
import DocStore.Proofs.Export
import DocStore.Proofs.Export.Contents
import DocStore.Proofs.Export.Report
