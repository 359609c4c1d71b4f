import StructureGraph.Graph.Snapshot
import StructureGraph.Graph.Query
import StructureGraph.Projection
import StructureGraph.Resolution.Significance

namespace StructureGraph

open Json (Value)

namespace Graph.TraversalRow

def toJson (r : TraversalRow) : Value :=
  .object
    [("source", Snapshot.nodeJson r.source),
     ("relationship", .string r.kind.label),
     ("target", Snapshot.nodeJson r.target),
     ("source_code", textJson? r.sourceCode),
     ("source_type", textJson? r.sourceType),
     ("target_code", textJson? r.targetCode),
     ("target_type", textJson? r.targetType)]

end Graph.TraversalRow

namespace Resolution

def CallCounts.toJson (c : CallCounts) : Value :=
  .object (c.entries.map fun e => (e.1, .ofNat e.2))

def ProcessedCounts.toJson (p : ProcessedCounts) : Value :=
  .object [("files", textsJson p.files), ("counts", p.counts.toJson)]

end Resolution

end StructureGraph
