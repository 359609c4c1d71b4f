import StructureGraph.Graph.Key
import StructureGraph.Table

namespace StructureGraph.Graph

/-- Attributes of a node. -/
abbrev Properties := Table String

structure Node where
  key : NodeKey
  properties : Properties
  deriving DecidableEq, Repr, Inhabited

namespace Node

/-- The name shown for a node, which is its key where no other is given. -/
def name (n : Node) : String := (n.properties.get? "name").getD n.key.text

end Node

/-- What an edge says: both ends are given by their keys. -/
structure Relationship where
  source : NodeKey
  kind : RelationKind
  target : NodeKey
  deriving DecidableEq, Repr, Inhabited

/-- Both ends are of the kinds that the relationship connects. -/
def Relationship.isWellTyped (r : Relationship) : Bool :=
  r.source.kind == r.kind.sourceKind && r.target.kind == r.kind.targetKind

/-- An edge between the nodes at two places. -/
structure Edge where
  source : Nat
  kind : RelationKind
  target : Nat
  deriving DecidableEq, Repr, Inhabited

/-- The place of each key. -/
structure KeyIndex where
  entries : List (NodeKey × Nat)
  deriving DecidableEq, Repr, Inhabited

namespace KeyIndex

def empty : KeyIndex := ⟨[]⟩

def get? (x : KeyIndex) (k : NodeKey) : Option Nat := x.entries.lookup k

/-- Set the place of a key. The newest entry of a key counts. -/
def insert (x : KeyIndex) (k : NodeKey) (place : Nat) : KeyIndex := ⟨(k, place) :: x.entries⟩

@[simp] theorem get?_empty (k : NodeKey) : empty.get? k = none := rfl

theorem get?_insert (x : KeyIndex) (k k' : NodeKey) (place : Nat) :
    (x.insert k place).get? k' = if k' = k then some place else x.get? k' := by
  by_cases h : k' = k
  · simp [get?, insert, h]
  · simp [get?, insert, List.lookup_cons, beq_eq_false_iff_ne.mpr h, h]

end KeyIndex

structure PropertyGraph where
  nodes : List Node
  edges : List Edge
  index : KeyIndex
  deriving DecidableEq, Repr, Inhabited

namespace PropertyGraph

def empty : PropertyGraph := ⟨[], [], .empty⟩

/-- The place of the node with this key. -/
def indexOf? (g : PropertyGraph) (k : NodeKey) : Option Nat := g.index.get? k

def node? (g : PropertyGraph) (k : NodeKey) : Option Node :=
  (g.indexOf? k).bind fun i => g.nodes[i]?

def hasNode (g : PropertyGraph) (k : NodeKey) : Bool := (g.indexOf? k).isSome

/-- Add a node unless its key is taken. -/
def mergeNode (g : PropertyGraph) (n : Node) : PropertyGraph :=
  if g.hasNode n.key then g
  else { g with nodes := g.nodes ++ [n], index := g.index.insert n.key g.nodes.length }

/-- Add an edge unless it is already there. -/
def mergeEdge (g : PropertyGraph) (e : Edge) : PropertyGraph :=
  if g.edges.contains e then g else { g with edges := g.edges ++ [e] }

/-- The edge between the nodes that a relationship names. -/
def edge? (g : PropertyGraph) (r : Relationship) : Option Edge :=
  match g.indexOf? r.source, g.indexOf? r.target with
  | some i, some j => some ⟨i, r.kind, j⟩
  | _, _ => none

/-- The relationship that an edge stands for. -/
def relationship? (g : PropertyGraph) (e : Edge) : Option Relationship :=
  match g.nodes[e.source]?, g.nodes[e.target]? with
  | some s, some t => some ⟨s.key, e.kind, t.key⟩
  | _, _ => none

def relationships (g : PropertyGraph) : List Relationship := g.edges.filterMap g.relationship?

end PropertyGraph

end StructureGraph.Graph
