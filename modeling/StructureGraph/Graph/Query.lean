import StructureGraph.Graph.Error

namespace StructureGraph.Graph

inductive Direction where
  | outgoing
  | incoming
  deriving DecidableEq, Repr

structure Counts where
  nodes : Nat
  relationships : Nat
  deriving DecidableEq, Repr

/-- A relationship with its nodes and the attributes shown for them. -/
structure TraversalRow where
  source : Node
  kind : RelationKind
  target : Node
  deriving DecidableEq, Repr

namespace TraversalRow

def sourceCode (r : TraversalRow) : Option String := r.source.properties.get? "code"

def sourceType (r : TraversalRow) : Option String := r.source.properties.get? "type"

def targetCode (r : TraversalRow) : Option String := r.target.properties.get? "code"

def targetType (r : TraversalRow) : Option String := r.target.properties.get? "type"

/-- Rows are ordered by source, then by kind, then by target. -/
def lt (a b : TraversalRow) : Prop :=
  a.source.key < b.source.key ∨
    (a.source.key = b.source.key ∧
      (a.kind.rank < b.kind.rank ∨ (a.kind = b.kind ∧ a.target.key < b.target.key)))

instance : LT TraversalRow := ⟨lt⟩

instance (a b : TraversalRow) : Decidable (a < b) :=
  inferInstanceAs (Decidable (_ ∨ _))

def le (a b : TraversalRow) : Bool := !decide (b < a)

end TraversalRow

namespace PropertyGraph

def sortNodes (ns : List Node) : List Node :=
  ns.mergeSort fun a b => a.key.le b.key

def nodesOfKind (g : PropertyGraph) (k : NodeKind) : List Node :=
  sortNodes (g.nodes.filter (·.key.kind == k))

/-- The places at the other end of the edges of a kind that begin or end at a place. -/
def placesBeside (g : PropertyGraph) (place : Nat) (r : RelationKind) : Direction → List Nat
  | .outgoing => (g.edges.filter fun e => e.source == place && e.kind == r).map Edge.target
  | .incoming => (g.edges.filter fun e => e.target == place && e.kind == r).map Edge.source

def neighbors (g : PropertyGraph) (k : NodeKey) (r : RelationKind) (d : Direction) : List Node :=
  match g.indexOf? k with
  | some i => sortNodes ((g.placesBeside i r d).filterMap fun j => g.nodes[j]?)
  | none => []

/-- How many edges begin or end at a place; one that does both counts twice. -/
def degreeAt (g : PropertyGraph) (place : Nat) : Nat :=
  g.edges.countP (·.source == place) + g.edges.countP (·.target == place)

def degree (g : PropertyGraph) (k : NodeKey) : Except GraphError Nat :=
  match g.indexOf? k with
  | some i => .ok (g.degreeAt i)
  | none => .error (.nodeNotFound k)

/-- Higher degrees come first, equal ones in the order of the keys. -/
def connectedLe (a b : Node × Nat) : Bool :=
  decide (b.2 < a.2) || (a.2 == b.2 && a.1.key.le b.1.key)

/-- The nodes of a kind that have relationships, most connected first, up to a limit. -/
def mostConnected (g : PropertyGraph) (k : NodeKind) (limit : Nat) : List (Node × Nat) :=
  let ranked := (g.nodes.zipIdx.filter (·.1.key.kind == k)).map fun n => (n.1, g.degreeAt n.2)
  ((ranked.filter fun n => decide (0 < n.2)).mergeSort connectedLe).take limit

def counts (g : PropertyGraph) : Counts := ⟨g.nodes.length, g.edges.length⟩

def row? (g : PropertyGraph) (e : Edge) : Option TraversalRow :=
  match g.nodes[e.source]?, g.nodes[e.target]? with
  | some source, some target => some ⟨source, e.kind, target⟩
  | _, _ => none

def traverse (g : PropertyGraph) : List TraversalRow :=
  (g.edges.filterMap g.row?).mergeSort TraversalRow.le

end PropertyGraph

end StructureGraph.Graph
