import StructureGraph.Graph.Query
import StructureGraph.Graph.Transaction

namespace StructureGraph.Graph

/-- What can be done with a store whose state is of type `σ`. All questions are asked of the graph
that `read` shows. -/
structure Store (σ : Type) where
  apply : σ → Transaction → σ × Except GraphError WriteSummary
  deleteAll : σ → Except GraphError σ
  read : σ → Except GraphError PropertyGraph

namespace Store

/-- The graph itself as a store, which is always in reach. -/
def memory : Store PropertyGraph where
  apply := PropertyGraph.apply
  deleteAll _ := .ok .empty
  read g := .ok g

def offline : GraphError := .unavailable "store offline"

/-- A store that goes out of reach after a number of transactions, whatever becomes of them. -/
def limited {σ : Type} (s : Store σ) : Store (Nat × σ) where
  apply
    | (0, state), _ => ((0, state), .error offline)
    | (n + 1, state), tx =>
      let (state', result) := s.apply state tx
      ((n, state'), result)
  deleteAll
    | (0, _) => .error offline
    | (n + 1, state) => (s.deleteAll state).map fun state' => (n + 1, state')
  read
    | (0, _) => .error offline
    | (_ + 1, state) => s.read state

end Store

end StructureGraph.Graph
