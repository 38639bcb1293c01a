import MicroFrontends.Catalog.Decode
import MicroFrontends.Writing
import MicroFrontends.Registry.Report
import MicroFrontends.Decimal.Read
import MicroFrontends.Files
import MicroFrontends.Files.Tree
import MicroFrontends.Selector.Decode
import MicroFrontends.Settings.Basic
import MicroFrontends.Settings.Toml.Table
import MicroFrontends.Settings.Layers
import MicroFrontends.Settings.Source
import MicroFrontends.Settings.UserFiles
import MicroFrontends.Catalog.Load
import MicroFrontends.CommandLine.Arguments
import MicroFrontends.CommandLine.Parser
import MicroFrontends.CommandLine.Help
import MicroFrontends.Log.Filter
import MicroFrontends.Main
import MicroFrontends.Proofs.Outcome
import MicroFrontends.Proofs.Runs
import MicroFrontends.Proofs.Folds
import MicroFrontends.Proofs.Dict
import MicroFrontends.Proofs.Sorting
import MicroFrontends.Proofs.FirstOccurrences
import MicroFrontends.Proofs.Steps
import MicroFrontends.Proofs.Json.Reader
import MicroFrontends.Proofs.Json.Number
import MicroFrontends.Proofs.Json.Text
import MicroFrontends.Proofs.Json.Syntax
import MicroFrontends.Proofs.Json.Structure
import MicroFrontends.Proofs.Json.Values
import MicroFrontends.Proofs.Json.Forms
import MicroFrontends.Proofs.Json.Decoders
import MicroFrontends.Proofs.Json.Records
import MicroFrontends.Proofs.Json.Written
import MicroFrontends.Proofs.Json.Invariants
import MicroFrontends.Proofs.Json.Edits
import MicroFrontends.Proofs.Json.RecordEdits
import MicroFrontends.Proofs.Selector.Grammar
import MicroFrontends.Proofs.Selector.Levels
import MicroFrontends.Proofs.Selector.Reading
import MicroFrontends.Proofs.Selector.Lookahead
import MicroFrontends.Proofs.Selector.Height
import MicroFrontends.Proofs.Selector.Spelling
import MicroFrontends.Proofs.Selector.Words
import MicroFrontends.Proofs.Selector.Text
import MicroFrontends.Proofs.Selector.Canonical
import MicroFrontends.Proofs.Selector.RoundTrip
import MicroFrontends.Proofs.Selector.SyntaxErrors
import MicroFrontends.Proofs.Selector.EndOfInput
import MicroFrontends.Proofs.Selector.Machine
import MicroFrontends.Proofs.Selector.Activations
import MicroFrontends.Proofs.Selector.Spans
import MicroFrontends.Proofs.Selector.Layout
import MicroFrontends.Proofs.Selector.Empty
import MicroFrontends.Proofs.Selector.Stream
import MicroFrontends.Proofs.Selector.Groups
import MicroFrontends.Proofs.Selector.Shortest
import MicroFrontends.Proofs.Selector.Rejections
import MicroFrontends.Proofs.Selector.Carets
import MicroFrontends.Proofs.Selector.Messages
import MicroFrontends.Proofs.Selector.Stored
import MicroFrontends.Proofs.Registry.Narrowing
import MicroFrontends.Proofs.Registry.Listing
import MicroFrontends.Proofs.Registry.Reports
import MicroFrontends.Proofs.Registry.Html
import MicroFrontends.Proofs.Registry.Attributes
import MicroFrontends.Proofs.Registry.Dependencies
import MicroFrontends.Proofs.Catalog.Decoders
import MicroFrontends.Proofs.Catalog.Encoding
import MicroFrontends.Proofs.Catalog.RoundTrip
import MicroFrontends.Proofs.Catalog.Edits
import MicroFrontends.Proofs.CommandLine.SettingsFiles
import MicroFrontends.Proofs.Settings.Layering
