import StructureGraph.CommandLine.Invocation
import StructureGraph.Report
import StructureGraph.Workspace

namespace StructureGraph.Program

open CommandLine Input

/-- What a run leaves besides files. -/
structure Outcome where
  status : Nat
  /-- What was asked for. -/
  output : String
  /-- What else is told. -/
  notes : String
  deriving DecidableEq, Repr

def success (output notes : String) : Outcome := ⟨0, output, notes⟩

def failure (notes message : String) : Outcome := ⟨1, "", notes ++ "Error: " ++ message ++ "\n"⟩

def versionText : String := "archgraph 0.1.0\n"

def helpText : String :=
  "Build a structural graph of a Java codebase and project it to JSON\n\n" ++
  "Usage: archgraph [OPTIONS] <COMMAND>\n\n" ++
  "Commands:\n" ++
  "  build <INPUT>    Analyze, rebuild the graph, persist it and print the projection\n" ++
  "  analyze <INPUT>  Print the filtered call-frequency map\n" ++
  "  project          Print the projection of the persisted graph\n" ++
  "  reset            Delete every node and relationship of the persisted graph\n" ++
  "  dump             Print every relationship of the persisted graph\n" ++
  "  help             Print this message\n\n" ++
  "Options:\n" ++
  "  --config <FILE>              Config file\n" ++
  "  --store <FILE>               Graph snapshot file\n" ++
  "  --filter-percentage <SHARE>  Share of methods dropped from each class\n" ++
  "  -h, --help                   Print help\n" ++
  "  -V, --version                Print version\n\n" ++
  "Options of build and project:\n" ++
  "  --limit <COUNT>      Number of most connected classes to include\n" ++
  "  --all                Include every class\n" ++
  "  -o, --output <FILE>  Write the JSON here\n"

def faultText : Refusal → String
  | .nothingSaid => helpText
  | .missingCommand => "error: a command is required\n"
  | .unknownCommand => "error: unrecognized command\n"
  | .unknownArgument => "error: unexpected argument\n"
  | .missingInput => "error: an input is required\n"
  | .missingValue => "error: a value is required\n"
  | .badValue => "error: invalid value\n"
  | .needlessValue => "error: unexpected value\n"
  | .conflict => "error: an argument cannot be used again or with another one\n"
  | .helpWanted | .versionWanted => ""

def refused : Refusal → Outcome
  | .helpWanted => success helpText ""
  | .versionWanted => success versionText ""
  | fault => ⟨2, "", faultText fault⟩

/-- What a command line says wins over the settings that are found. Both have to be valid. -/
def settingsFor (files : Files) (lookup : String → Option String) (i : Invocation) :
    Except SettingsError Settings := do
  let found ← Settings.load files lookup i.config (i.command.input?.bind Location.path?)
  let s :=
    { found with
      store := i.store.getD found.store
      filterPercentage := i.filterPercentage.getD found.filterPercentage }
  s.validate
  pure s

/-- Show a value, or write it to a file. -/
def present (files : Files) (notes : String) (value : Json.Value) :
    Option String → Files × Outcome
  | none => (files, success (Json.pretty value ++ "\n") notes)
  | some path =>
    let (files', written) := files.writeText path (Json.pretty value ++ "\n")
    (files', if written then success "" notes else failure notes ("Failed to write " ++ path))

/-- Tell of an error, and of what is behind it. -/
def errorText (e : WorkspaceError) : String :=
  match e.storeCause? with
  | some cause => e.message ++ "\n\nCaused by:\n    " ++ cause.message
  | none => e.message

def presentResult {α : Type} (files : Files) (result : Except WorkspaceError α)
    (toJson : α → Json.Value) (target : Option String) : Files × Outcome :=
  match result with
  | .ok a => present files "" (toJson a) target
  | .error e => (files, failure "" (errorText e))

def buildNote (s : BuildSummary) : String :=
  "Ingested " ++ toString s.facts ++ " facts from " ++ toString s.files ++ " files (" ++
    toString s.failedFiles.length ++ " failed): " ++ toString s.graph.nodes ++ " nodes, " ++
    toString s.graph.relationships ++ " relationships\n"

/-- Build a graph, then show what was stored. -/
def build (w : Workspace) (input : Location) (view : View) : Files × Outcome :=
  match w.build input with
  | (files, .error e) => (files, failure "" (errorText e))
  | (files, .ok summary) =>
    match Workspace.project { w with files := files } (view.mode w.settings.limit) with
    | .error e => (files, failure "" (errorText e))
    | .ok shown => present files (buildNote summary) shown.toJson view.output

def reset (w : Workspace) : Files × Outcome :=
  match w.reset with
  | (files, .ok ()) => (files, success "" ("Cleared " ++ w.settings.store ++ "\n"))
  | (files, .error e) => (files, failure "" (errorText e))

def perform (w : Workspace) : Command → Files × Outcome
  | .build input view => build w input view
  | .analyze input =>
    presentResult w.files (w.analyze input) Resolution.ProcessedCounts.toJson none
  | .project view =>
    presentResult w.files (w.project (view.mode w.settings.limit)) SystemStructure.toJson
      view.output
  | .reset => reset w
  | .dump =>
    presentResult w.files w.dump (fun rows => .array (rows.map Graph.TraversalRow.toJson)) none

/-- Carry out a command line. -/
def run (files : Files) (lookup : String → Option String) (arguments : List String) :
    Files × Outcome :=
  match Invocation.ofArguments arguments with
  | .error refusal => (files, refused refusal)
  | .ok i =>
    match settingsFor files lookup i with
    | .error e => (files, failure "" e.message)
    | .ok settings => perform ⟨settings, files⟩ i.command

end StructureGraph.Program
