import StructureGraph.Files.Basic
import StructureGraph.Graph.Snapshot

namespace StructureGraph.Graph

/-- A graph and the file that keeps it, if there is one. -/
structure StoredGraph where
  graph : PropertyGraph
  path : Option String
  deriving Inhabited

namespace StoredGraph

/-- The graph that a file keeps; where there is none the graph is empty. -/
def load (files : Files) (path : String) : Except GraphError PropertyGraph :=
  if files.exists path then
    match files.text? path with
    | some text => Snapshot.ofText text
    | none => .error .snapshotFile
  else .ok .empty

def ofFile (files : Files) (path : String) : Except GraphError StoredGraph :=
  (load files path).map fun g => ⟨g, some path⟩

/-- Make the directory that a file is to lie in. -/
def createParent (files : Files) (path : String) : Files × Bool :=
  match Files.Path.parent? path with
  | none | some "" => (files, true)
  | some parent => files.createDirectories parent

def temporaryPath (path : String) : String := Files.Path.withExtension path "json.tmp"

/-- Write a snapshot beside the file that is to have it, and make it last. -/
def writeTemporary (g : PropertyGraph) (files : Files) (path : String) : Files × Bool :=
  files.inTurn
    [(·.createFile (temporaryPath path)),
     (·.appendBytes (temporaryPath path) (Json.compact (Snapshot.toJson g)).toUTF8),
     (·.appendBytes (temporaryPath path) "\n".toUTF8),
     (·.syncFile (temporaryPath path))]

/-- Write a snapshot to a file. It is written under another name first and then moved, so that the file is
never seen half-written. -/
def save (g : PropertyGraph) (files : Files) (path : String) : Files × Bool :=
  files.inTurn
    [(createParent · path), (writeTemporary g · path), (·.moveFile (temporaryPath path) path)]

/-- Write the graph to its file. A graph without a file stays where it is. -/
def persist (s : StoredGraph) (files : Files) : Files × Except GraphError Unit :=
  match s.path with
  | none => (files, .ok ())
  | some path =>
    let (files, saved) := save s.graph files path
    (files, if saved then .ok () else .error .snapshotFile)

end StoredGraph

end StructureGraph.Graph
