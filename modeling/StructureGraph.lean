import StructureGraph.CommandLine.Argument
import StructureGraph.CommandLine.Invocation
import StructureGraph.CommandLine.Level
import StructureGraph.CommandLine.Values
import StructureGraph.Decimal.Reader
import StructureGraph.Decimal.Shortest
import StructureGraph.Fact
import StructureGraph.Files.Basic
import StructureGraph.Files.Changes
import StructureGraph.Files.Entry
import StructureGraph.Files.Path
import StructureGraph.Files.System
import StructureGraph.Glob.Basic
import StructureGraph.Glob.Reader
import StructureGraph.Graph.Basic
import StructureGraph.Graph.Error
import StructureGraph.Graph.File
import StructureGraph.Graph.Key
import StructureGraph.Graph.Query
import StructureGraph.Graph.Snapshot
import StructureGraph.Graph.Store
import StructureGraph.Graph.Transaction
import StructureGraph.Ingestion
import StructureGraph.Input.IgnoreRule
import StructureGraph.Input.Location
import StructureGraph.Input.SourceFiles
import StructureGraph.Java.Declaration
import StructureGraph.Java.Extraction
import StructureGraph.Java.Facts
import StructureGraph.Java.Signature
import StructureGraph.Java.Source
import StructureGraph.Java.Syntax.Grammar
import StructureGraph.Java.Syntax.Pattern
import StructureGraph.Java.Syntax.Token
import StructureGraph.Java.Syntax.Tree
import StructureGraph.Java.TypeText
import StructureGraph.Json.Basic
import StructureGraph.Json.Printer
import StructureGraph.Json.Reader
import StructureGraph.Main
import StructureGraph.Program
import StructureGraph.Projection
import StructureGraph.Report
import StructureGraph.Resolution.Call
import StructureGraph.Resolution.FoundType
import StructureGraph.Resolution.Frequency
import StructureGraph.Resolution.Inquiry
import StructureGraph.Resolution.Resolver
import StructureGraph.Resolution.Search
import StructureGraph.Resolution.Significance
import StructureGraph.Resolution.Sources
import StructureGraph.Settings
import StructureGraph.Table
import StructureGraph.Text.Blank
import StructureGraph.Text.Identifier
import StructureGraph.Text.Letter
import StructureGraph.Text.Printable
import StructureGraph.Text.Quoted
import StructureGraph.Text.Ranges
import StructureGraph.Text.Segments
import StructureGraph.Toml.Basic
import StructureGraph.Toml.Quoted
import StructureGraph.Toml.Reader
import StructureGraph.Toml.Scalar
import StructureGraph.Workspace
import StructureGraph.Proofs.Graph.Integrity
import StructureGraph.Proofs.Graph.Transaction
import StructureGraph.Proofs.Json.RoundTrip
import StructureGraph.Proofs.Files.Content
import StructureGraph.Proofs.Graph.Session
import StructureGraph.Proofs.Graph.Growth
import StructureGraph.Proofs.Graph.Loading
import StructureGraph.Proofs.Files.Directories
import StructureGraph.Proofs.Graph.Persistence
import StructureGraph.Proofs.Graph.Replay
import StructureGraph.Proofs.Ingestion
import StructureGraph.Proofs.Graph.Key
import StructureGraph.Proofs.Graph.Query
import StructureGraph.Proofs.Projection
import StructureGraph.Proofs.Files.Path
import StructureGraph.Proofs.Resolution.Resolver
import StructureGraph.Proofs.Resolution.Frequency
import StructureGraph.Proofs.Resolution.Batches
import StructureGraph.Proofs.Resolution.Search
import StructureGraph.Proofs.Resolution.Call
import StructureGraph.Proofs.Java.Facts
import StructureGraph.Proofs.Resolution.Significance
import StructureGraph.Proofs.Workspace.Survey
import StructureGraph.Proofs.Files.Tree
import StructureGraph.Proofs.Input.SourceFiles
import StructureGraph.Proofs.Resolution.Scope
import StructureGraph.Proofs.Java.Snapshot
import StructureGraph.Proofs.Files.Frame
import StructureGraph.Proofs.Graph.Saving
import StructureGraph.Proofs.Workspace.Build
import StructureGraph.Proofs.Java.Ownership
import StructureGraph.Proofs.Ingestion.Batch
import StructureGraph.Proofs.Ingestion.Connectivity
import StructureGraph.Proofs.Resolution.Sources
import StructureGraph.Proofs.Table
import StructureGraph.Proofs.Resolution.Merging
import StructureGraph.Proofs.Resolution.Ranking
import StructureGraph.Proofs.Resolution.Steps
import StructureGraph.Proofs.Resolution.Distance
import StructureGraph.Proofs.Resolution.Preorder
import StructureGraph.Proofs.Resolution.Termination
import StructureGraph.Proofs.Resolution.Overloads
import StructureGraph.Proofs.Resolution.Candidates
import StructureGraph.Proofs.Resolution.Fields
import StructureGraph.Proofs.Java.Words
import StructureGraph.Proofs.Resolution.OwnTypes
import StructureGraph.Proofs.Graph.Reading
import StructureGraph.Proofs.Resolution.Correspondence
import StructureGraph.Proofs.Resolution.StaticImports
import StructureGraph.Proofs.Resolution.Arrays
import StructureGraph.Proofs.Java.PrivateCalls
import StructureGraph.Proofs.Projection.Ranking
import StructureGraph.Proofs.Java.Matching
import StructureGraph.Proofs.Java.Places
import StructureGraph.Proofs.Java.Form
import StructureGraph.Proofs.Java.Contents
import StructureGraph.Proofs.Java.Members
import StructureGraph.Proofs.Java.Bodies
import StructureGraph.Proofs.Java.Nesting
import StructureGraph.Proofs.Resolution.Signatures
import StructureGraph.Proofs.Java.TypeText
import StructureGraph.Proofs.Resolution.SimpleTypes
import StructureGraph.Proofs.Resolution.VisibleDirectories
import StructureGraph.Proofs.Projection.CompositeKeys
import StructureGraph.Proofs.Resolution.KeepCount
