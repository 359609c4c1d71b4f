import StructureGraph.Graph.File
import StructureGraph.Ingestion
import StructureGraph.Input.Location
import StructureGraph.Input.SourceFiles
import StructureGraph.Projection
import StructureGraph.Settings

namespace StructureGraph

open StructureGraph.Graph StructureGraph.Input
open Resolution (FileTally ProcessedCounts)
open Java (SourceError CompilationUnit)

structure Workspace where
  settings : Settings
  files : Files

/-- What is done with a store. -/
inductive StoreTask where
  | opening (path : String)
  | clearing
  | ingesting
  | persisting
  deriving DecidableEq, Repr

def StoreTask.failure : StoreTask → String
  | opening path => "Failed to open graph store " ++ path
  | clearing => "Failed to reset graph store"
  | ingesting => "Graph store became unavailable during ingestion"
  | persisting => "Failed to persist graph store"

inductive WorkspaceError where
  | settings (cause : SettingsError)
  | input (cause : InputError)
  | repository (address : String) (fault : Files.CloneFault)
  | store (task : StoreTask) (cause : GraphError)

namespace WorkspaceError

def message : WorkspaceError → String
  | settings cause => cause.message
  | input cause => cause.message
  | repository _ .noDirectory => "Failed to create a directory for the clone"
  | repository _ .noGit => "Failed to run git"
  | repository address (.refused output) =>
    "git clone " ++ address ++ " failed: " ++ Text.trim output
  | store task _ => task.failure

def storeCause? : WorkspaceError → Option GraphError
  | store _ cause => some cause
  | _ => none

end WorkspaceError

structure BuildSummary where
  files : Nat
  /-- Files whose facts are missing, because they cannot be read. -/
  failedFiles : List String
  significantMethods : Nat
  facts : Nat
  created : WriteSummary
  ingestFailures : Nat
  graph : Counts
  deriving DecidableEq, Repr

namespace Workspace

/-- Where the sources of an input lie. A repository is cloned first. -/
def inputPath (w : Workspace) : Location → Except WorkspaceError String
  | .path text => .ok text
  | .repository address => (w.files.system.clone address).mapError (.repository address)

def sources (w : Workspace) (input : String) : Except WorkspaceError (List String) := do
  let exclusions ← w.settings.exclusions.mapError .settings
  (sourceFiles w.files input exclusions).mapError .input

def processFiles (w : Workspace) (input : String) (sources : List String) :
    Except WorkspaceError ProcessedCounts := do
  let root := sourceRoot w.files input
  let tallies := Resolution.analyze w.files w.settings.standardPrefixes root sources
  let dropped ← w.settings.share.mapError .settings
  pure (Resolution.process dropped tallies)

/-- The significant methods of an input with the numbers of their calls. -/
def analyze (w : Workspace) (input : Location) : Except WorkspaceError ProcessedCounts := do
  let path ← w.inputPath input
  let sources ← w.sources path
  w.processFiles path sources

/-- The facts that sources state, and the sources that cannot be read. -/
structure StatedFacts where
  facts : List Fact
  failed : List String

def statedFacts (w : Workspace) (significant : List String) (sources : List String) :
    StatedFacts :=
  let units := sources.map fun path => (path, Resolution.readUnit w.files path)
  { facts := units.flatMap fun
      | (_, .ok u) => w.settings.extraction.facts (some significant) u
      | (_, .error _) => []
    failed := units.filterMap fun
      | (_, .ok _) => none
      | (path, .error _) => some path }

/-- What the sources of an input say. -/
structure Survey where
  sources : List String
  significant : ProcessedCounts
  stated : StatedFacts

/-- Read an input. No file changes, and the graph is not looked at. -/
def survey (w : Workspace) (input : Location) : Except WorkspaceError Survey := do
  let path ← w.inputPath input
  let sources ← w.sources path
  let significant ← w.processFiles path sources
  pure ⟨sources, significant, w.statedFacts significant.counts.names sources⟩

def openGraph (w : Workspace) : Except WorkspaceError StoredGraph :=
  (StoredGraph.ofFile w.files w.settings.store).mapError (.store (.opening w.settings.store))

def clear (g : PropertyGraph) : Except WorkspaceError PropertyGraph :=
  (Store.memory.reset g).mapError fun e => .store .clearing e.cause

def ingest (w : Workspace) (g : PropertyGraph) (facts : List Fact) :
    PropertyGraph × Except WorkspaceError IngestReport :=
  let (g', result) := Store.memory.ingestAll w.settings.keying .bestEffort g facts
  (g', result.mapError fun e => .store .ingesting e.cause)

/-- Put a graph in the place of one that was opened. -/
def persist (w : Workspace) (opened : StoredGraph) (g : PropertyGraph) :
    Files × Except WorkspaceError Unit :=
  let (files, result) := StoredGraph.persist { opened with graph := g } w.files
  (files, result.mapError (.store .persisting))

/-- What is ready to be written: what the sources say, the graph that was there, and the one that
takes its place. -/
structure Rebuilt where
  survey : Survey
  opened : StoredGraph
  graph : PropertyGraph
  report : IngestReport

/-- Make a graph of an input. No file changes. -/
def rebuild (w : Workspace) (input : Location) : Except WorkspaceError Rebuilt := do
  let survey ← w.survey input
  let opened ← w.openGraph
  let cleared ← clear opened.graph
  let (graph, result) := w.ingest cleared survey.stated.facts
  let report ← result
  pure ⟨survey, opened, graph, report⟩

def Rebuilt.summary (r : Rebuilt) : BuildSummary where
  files := r.survey.sources.length
  failedFiles := r.survey.stated.failed
  significantMethods := r.survey.significant.counts.names.length
  facts := r.survey.stated.facts.length
  created := r.report.created
  ingestFailures := r.report.failures.length
  graph := r.graph.counts

/-- Replace the stored graph by that of an input. -/
def build (w : Workspace) (input : Location) : Files × Except WorkspaceError BuildSummary :=
  match w.rebuild input with
  | .error e => (w.files, .error e)
  | .ok r =>
    let (files, result) := w.persist r.opened r.graph
    (files, result.map fun _ => r.summary)

/-- The structure of the stored graph. -/
def project (w : Workspace) (mode : ProjectionMode) : Except WorkspaceError SystemStructure :=
  w.openGraph.map fun g => Projection.project g.graph w.settings.systemName mode

/-- Leave nothing in the stored graph. -/
def reset (w : Workspace) : Files × Except WorkspaceError Unit :=
  match w.openGraph with
  | .error e => (w.files, .error e)
  | .ok opened =>
    match clear opened.graph with
    | .error e => (w.files, .error e)
    | .ok g => w.persist opened g

/-- All relationships of the stored graph. -/
def dump (w : Workspace) : Except WorkspaceError (List TraversalRow) :=
  w.openGraph.map fun g => g.graph.traverse

end Workspace

end StructureGraph
