import StructureGraph.Files.Changes
import StructureGraph.Program

namespace StructureGraph.Machine

open Files (Entry Change)

def pathOf (place : List String) : String := "/" ++ Files.Path.joinSegments place

/-- The names on the way to an absolute path. -/
def placeOf (path : String) : List String :=
  (Files.Path.steps path).foldl
    (fun place s =>
      match s with
      | .root => []
      | .here => place
      | .up => place.dropLast
      | .name n => place ++ [n])
    []

/-- Everything at a place; links are left out, and so is what cannot be read. -/
partial def readEntry (place : List String) : IO (Option Entry) := do
  let base ← IO.currentDir
  let path := base / pathOf place
  try
    match (← path.symlinkMetadata).type with
    | .dir =>
      let names := (← path.readDir).toList.map (·.fileName)
      let entries ← names.filterMapM fun n => do
        pure ((← readEntry (place ++ [n])).map (n, ·))
      pure (some (.directory entries))
    | .file => pure (some (.file (← IO.FS.readBinFile path)))
    | _ => pure none
  catch _ => pure none

/-- Put what lies at a place into a tree, with the directories on the way to it. -/
def reach (root : Entry) (place : List String) : IO Entry := do
  let tree ← (List.range place.length).foldlM
    (fun tree depth => do
      let above := place.take depth
      let base ← IO.currentDir
      if (tree.descend? above).isNone && (← (base / pathOf above).isDir) then
        pure (Entry.put above tree (.directory []))
      else pure tree)
    root
  if (tree.descend? place).isSome then pure tree
  else
    match ← readEntry place with
    | some e => pure (Entry.put place tree e)
    | none => pure tree

/-- The places of ignore rules above a place. -/
def rulePlaces (place : List String) : List (List String) :=
  (List.range place.length).flatMap fun depth =>
    [[".ignore"], [".gitignore"], [".git", "info", "exclude"]].map (place.take depth ++ ·)

/-- The values of options may follow an equals sign. -/
def namedPaths (arguments : List String) : List String :=
  arguments.flatMap fun a => a :: ((a.splitOn "=").drop 1)

/-- The files at some paths. Places higher up come first, since they hold those below them. -/
def readFiles (workingDirectory : String) (paths : List String) : IO Files := do
  let start := placeOf workingDirectory
  let named := paths.map fun p => placeOf (Files.Path.join workingDirectory p)
  let places := (start :: named).mergeSort fun a b => decide (a.length ≤ b.length)
  let root ← (places ++ places.flatMap rulePlaces).foldlM reach (.directory [])
  pure ⟨root, start, .reliable⟩

def carryOut (c : Change) : IO Unit := do
  let base ← IO.currentDir
  match c with
  | .makeDirectory place => IO.FS.createDirAll (base / pathOf place)
  | .write place bytes => IO.FS.writeBinFile (base / pathOf place) bytes
  | .remove place => IO.FS.removeFile (base / pathOf place)

def variableNames : List String :=
  ["ARCHGRAPH_FILTER_PERCENTAGE", "ARCHGRAPH_STORE", "ARCHGRAPH_LIMIT", "ARCHGRAPH_SYSTEM_NAME"]

/-- The settings may name a store outside the working directory. -/
def storePaths (files : Files) (lookup : String → Option String) (arguments : List String) :
    List String :=
  match CommandLine.Invocation.ofArguments arguments with
  | .ok i =>
    match Program.settingsFor files lookup i with
    | .ok s => [s.store]
    | .error _ => []
  | .error _ => []

def run (arguments : List String) : IO Program.Outcome := do
  let workingDirectory := toString (← IO.currentDir)
  let values ← variableNames.filterMapM fun n => do pure ((← IO.getEnv n).map (n, ·))
  let lookup name := values.lookup name
  let paths := namedPaths arguments ++ values.map Prod.snd
  let first ← readFiles workingDirectory paths
  let files ← readFiles workingDirectory (paths ++ storePaths first lookup arguments)
  let (after, outcome) := Program.run files lookup arguments
  (Files.changes files.root after.root).forM carryOut
  pure outcome

end StructureGraph.Machine

def main (arguments : List String) : IO UInt32 := do
  let outcome ← StructureGraph.Machine.run arguments
  IO.eprint outcome.notes
  IO.print outcome.output
  pure (UInt32.ofNat outcome.status)
