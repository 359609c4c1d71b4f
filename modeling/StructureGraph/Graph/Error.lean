import StructureGraph.Graph.Basic

namespace StructureGraph.Graph

inductive GraphError where
  | invalidKey (key : NodeKey)
  | invalidRelationship (relationship : Relationship)
  | missingEndpoint (key : NodeKey)
  | nodeNotFound (key : NodeKey)
  | unavailable (reason : String)
  /-- The snapshot file can be neither read nor written. -/
  | snapshotFile
  /-- The snapshot file is no JSON text of a snapshot. -/
  | snapshotJson
  | snapshotVersion (found : Nat)
  deriving DecidableEq, Repr

def snapshotVersion : Nat := 1

namespace GraphError

def message : GraphError → String
  | invalidKey k => "Invalid node key: " ++ k.display
  | invalidRelationship r =>
    "Relationship " ++ r.kind.label ++ " cannot connect " ++ r.source.display ++ " to " ++
      r.target.display
  | missingEndpoint k => "Relationship endpoint does not exist: " ++ k.display
  | nodeNotFound k => "Node not found: " ++ k.display
  | unavailable reason => "Graph store unavailable: " ++ reason
  | snapshotFile => "Snapshot IO error"
  | snapshotJson => "Snapshot JSON error"
  | snapshotVersion found =>
    "Unsupported snapshot version " ++ toString found ++ " (expected " ++
      toString Graph.snapshotVersion ++ ")"

/-- The store itself cannot be used any more. All other errors concern one write only. -/
def isConnectivity : GraphError → Bool
  | unavailable _ | snapshotFile | snapshotJson | snapshotVersion _ => true
  | _ => false

end GraphError

end StructureGraph.Graph
