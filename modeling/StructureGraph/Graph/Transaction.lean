import StructureGraph.Graph.Error

namespace StructureGraph.Graph

inductive Write where
  | node (n : Node)
  | relationship (r : Relationship)
  deriving DecidableEq, Repr

abbrev Transaction := List Write

structure WriteSummary where
  nodesCreated : Nat
  relationshipsCreated : Nat
  deriving DecidableEq, Repr

namespace WriteSummary

def empty : WriteSummary := ⟨0, 0⟩

def add (a b : WriteSummary) : WriteSummary :=
  ⟨a.nodesCreated + b.nodesCreated, a.relationshipsCreated + b.relationshipsCreated⟩

def isNoop (s : WriteSummary) : Bool := s.nodesCreated == 0 && s.relationshipsCreated == 0

end WriteSummary

namespace PropertyGraph

/-- The first of two keys that is neither in the graph nor pending. -/
def firstMissing (g : PropertyGraph) (pending : List NodeKey) (a b : NodeKey) : Option NodeKey :=
  [a, b].find? fun k => !(pending.contains k || g.hasNode k)

/-- The first error among the writes; `pending` holds the keys of nodes that earlier writes merge. -/
def check (g : PropertyGraph) : List NodeKey → Transaction → Except GraphError Unit
  | _, [] => .ok ()
  | pending, .node n :: ws =>
    if n.key.isValid then g.check (n.key :: pending) ws else .error (.invalidKey n.key)
  | pending, .relationship r :: ws =>
    if r.isWellTyped then
      match g.firstMissing pending r.source r.target with
      | some k => .error (.missingEndpoint k)
      | none => g.check pending ws
    else .error (.invalidRelationship r)

/-- Make one write. The summary says what was created. -/
def write (g : PropertyGraph) : Write → PropertyGraph × Except GraphError WriteSummary
  | .node n => (g.mergeNode n, .ok ⟨if g.hasNode n.key then 0 else 1, 0⟩)
  | .relationship r =>
    match g.edge? r with
    | some e => (g.mergeEdge e, .ok ⟨0, if g.edges.contains e then 0 else 1⟩)
    | none => (g, .error (.missingEndpoint r.source))

/-- Make writes one by one. Where one fails, those before it stay made. -/
def execute (g : PropertyGraph) : Transaction → PropertyGraph × Except GraphError WriteSummary
  | [] => (g, .ok .empty)
  | w :: ws =>
    match g.write w with
    | (g', .error e) => (g', .error e)
    | (g', .ok s) =>
      let (g'', result) := g'.execute ws
      (g'', result.map s.add)

def apply (g : PropertyGraph) (tx : Transaction) : PropertyGraph × Except GraphError WriteSummary :=
  match g.check [] tx with
  | .error e => (g, .error e)
  | .ok () => g.execute tx

end PropertyGraph

end StructureGraph.Graph
