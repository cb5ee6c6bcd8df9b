import FilterLine.Arguments.Basic
import FilterLine.Arguments.Reader
import FilterLine.Command.Failure
import FilterLine.Command.Log
import FilterLine.Command.Run
import FilterLine.Completion.Candidates
import FilterLine.Completion.Clause
import FilterLine.Completion.Engine
import FilterLine.Completion.Inquiry
import FilterLine.Completion.Paths
import FilterLine.Config.Basic
import FilterLine.Config.Document
import FilterLine.Config.LogLevel
import FilterLine.Decimal
import FilterLine.Files.Disk
import FilterLine.Files.Entry
import FilterLine.Files.FileError
import FilterLine.Files.Tree
import FilterLine.Json.Basic
import FilterLine.Json.Fault
import FilterLine.Json.Printer
import FilterLine.Json.Reader
import FilterLine.Json.Shape
import FilterLine.Line.CommandLine
import FilterLine.Line.Context
import FilterLine.Line.Quoting
import FilterLine.Listing.Answer
import FilterLine.Listing.Lines
import FilterLine.Listing.Mark
import FilterLine.Main
import FilterLine.Program.Help
import FilterLine.Program.Shelf
import FilterLine.Schema.ArgType
import FilterLine.Schema.Cache
import FilterLine.Schema.CacheFile
import FilterLine.Schema.Record
import FilterLine.Schema.Shorthand
import FilterLine.Schema.Snapshot
import FilterLine.Schema.SnapshotFile
import FilterLine.Schema.Table
import FilterLine.Schema.Tool
import FilterLine.Shell.Hook
import FilterLine.Text.Basic
import FilterLine.Text.Blank
import FilterLine.Text.Literal
import FilterLine.Text.Utf8
import FilterLine.Text.Word
import FilterLine.Toml.Basic
import FilterLine.Toml.Reader
import FilterLine.Toml.Scalar
import FilterLine.Toml.Writer
import FilterLine.Proofs.Cache.Act
import FilterLine.Proofs.Cache.History
import FilterLine.Proofs.Cache.Lookup
import FilterLine.Proofs.Cache.Once
import FilterLine.Proofs.Cache.Reference
import FilterLine.Proofs.Cache.Run
import FilterLine.Proofs.Cache.Shorthands
import FilterLine.Proofs.Cache.Step
import FilterLine.Proofs.Completion.Acceptance
import FilterLine.Proofs.Completion.ClauseLine
import FilterLine.Proofs.Completion.Extension
import FilterLine.Proofs.Completion.Offers
import FilterLine.Proofs.Completion.Questions
import FilterLine.Proofs.Completion.Requests
import FilterLine.Proofs.Completion.Spelling
import FilterLine.Proofs.Completion.Transparency
import FilterLine.Proofs.Json.Grammar
import FilterLine.Proofs.Json.Printer
import FilterLine.Proofs.Line.Clause
import FilterLine.Proofs.Line.Cut
import FilterLine.Proofs.Line.Scanner
import FilterLine.Proofs.Line.Words
import FilterLine.Proofs.Schema.ArgType
import FilterLine.Proofs.Schema.Shorthand
import FilterLine.Proofs.Schema.SnapshotFile
import FilterLine.Proofs.Schema.Table
import FilterLine.Proofs.Text.Name
import FilterLine.Proofs.Text.Utf8
import FilterLine.Proofs.Cache.Outdated
import FilterLine.Proofs.Json.Soundness
import FilterLine.Proofs.Cache.TornFile
import FilterLine.Proofs.Cache.Durability
import FilterLine.Proofs.Schema.Rewriting
import FilterLine.Proofs.Schema.Writings
import FilterLine.Proofs.Line.Finished
import FilterLine.Proofs.Completion.Escaping
import FilterLine.Proofs.Completion.PathWords
import FilterLine.Proofs.Command.Printed
import FilterLine.Proofs.Listing.Names
import FilterLine.Proofs.Cache.Scraped
import FilterLine.Proofs.Line.Balance
import FilterLine.Proofs.Line.Described
import FilterLine.Proofs.Completion.ClauseAnswers
import FilterLine.Proofs.Completion.Unused
import FilterLine.Proofs.Completion.Strings
import FilterLine.Proofs.Cache.Footprint
import FilterLine.Proofs.Completion.Footprint
import FilterLine.Proofs.Text.ByteOrder
import FilterLine.Proofs.Completion.PathListing
import FilterLine.Proofs.Completion.FreeNames
import FilterLine.Proofs.Completion.Narrowing
import FilterLine.Proofs.Text.Splitting
import FilterLine.Proofs.Files.Places
import FilterLine.Proofs.Completion.PathDescent
import FilterLine.Proofs.Listing.Lines
import FilterLine.Proofs.Listing.Marked
import FilterLine.Proofs.Listing.Declarations
import FilterLine.Proofs.Listing.ProtocolTable
import FilterLine.Proofs.Arguments.PathOptions
import FilterLine.Proofs.Command.Settings
import FilterLine.Proofs.Completion.HomeCollapse
import FilterLine.Proofs.Toml.Lines
import FilterLine.Proofs.Config.SettingsFile
import FilterLine.Proofs.Toml.Strings
