import StructureGraph.Graph.Query
import StructureGraph.Proofs.Graph.Integrity
import StructureGraph.Proofs.Graph.Key

namespace StructureGraph.Graph

namespace TraversalRow

def relationship (row : TraversalRow) : Relationship := ⟨row.source.key, row.kind, row.target.key⟩

/-- What rows are ordered by. -/
def orderKey (row : TraversalRow) : (ℕ ×ₗ String) ×ₗ ℕ ×ₗ ℕ ×ₗ String :=
  toLex (row.source.key.orderKey, toLex (row.kind.rank, row.target.key.orderKey))

variable {a b : TraversalRow}

theorem relationship_eq_iff {s t : NodeKey} {r : RelationKind} :
    a.relationship = ⟨s, r, t⟩ ↔ a.source.key = s ∧ a.kind = r ∧ a.target.key = t := by
  rw [relationship, Relationship.mk.injEq]

theorem relationship_eq_of_orderKey_eq (h : a.orderKey = b.orderKey) :
    a.relationship = b.relationship := by
  obtain ⟨hsource, hrest⟩ := Prod.mk.inj (toLex.injective h)
  obtain ⟨hkind, htarget⟩ := Prod.mk.inj (toLex.injective hrest)
  rw [relationship, relationship, NodeKey.orderKey_injective hsource,
    RelationKind.rank_injective hkind, NodeKey.orderKey_injective htarget]

theorem lt_iff : a < b ↔ a.orderKey < b.orderKey := by
  have hlt : a < b ↔ a.source.key < b.source.key ∨ a.source.key = b.source.key ∧
      (a.kind.rank < b.kind.rank ∨ a.kind = b.kind ∧ a.target.key < b.target.key) := Iff.rfl
  have hkind : a.kind = b.kind ↔ a.kind.rank = b.kind.rank :=
    ⟨congrArg _, RelationKind.rank_injective⟩
  rw [hlt, NodeKey.lt_iff, NodeKey.lt_iff, ← NodeKey.orderKey_injective.eq_iff, hkind, orderKey,
    orderKey, Prod.Lex.toLex_lt_toLex, Prod.Lex.toLex_lt_toLex]

theorem le_iff : a.le b ↔ a.orderKey ≤ b.orderKey := by
  rw [le, Bool.not_eq_true', decide_eq_false_iff_not, lt_iff, not_lt]

end TraversalRow

namespace Direction

/-- The relationship that leads from a key to another, or from the other to the key. -/
def relationship (k : NodeKey) (r : RelationKind) (k' : NodeKey) : Direction → Relationship
  | outgoing => ⟨k, r, k'⟩
  | incoming => ⟨k', r, k⟩

/-- The same between two places. -/
def edge (i : Nat) (r : RelationKind) (j : Nat) : Direction → Edge
  | outgoing => ⟨i, r, j⟩
  | incoming => ⟨j, r, i⟩

/-- The end of an edge from which it is seen. -/
def near (e : Edge) : Direction → Nat
  | outgoing => e.source
  | incoming => e.target

end Direction

namespace PropertyGraph

variable {g : PropertyGraph} {k k' : NodeKey} {n : Node} {r : RelationKind} {d : Direction}
  {i j : Nat}

private theorem mem_sortNodes {ns : List Node} : n ∈ sortNodes ns ↔ n ∈ ns := List.mem_mergeSort

theorem sortNodes_perm (ns : List Node) : (sortNodes ns).Perm ns := List.mergeSort_perm _ _

theorem sortNodes_sorted (ns : List Node) : (sortNodes ns).Pairwise fun a b => a.key.le b.key :=
  List.pairwise_mergeSort (fun a b c => NodeKey.le_trans a.key b.key c.key)
    (fun a b => NodeKey.le_total a.key b.key) ns

theorem mem_nodesOfKind {c : NodeKind} : n ∈ g.nodesOfKind c ↔ n ∈ g.nodes ∧ n.key.kind = c := by
  simp [nodesOfKind, mem_sortNodes]

theorem Integrity.nodesOfKind_nodup (h : g.Integrity) (c : NodeKind) :
    ((g.nodesOfKind c).map Node.key).Nodup := by
  have hperm := (sortNodes_perm (g.nodes.filter (·.key.kind == c))).map Node.key
  exact hperm.nodup_iff.mpr (h.keys_nodup.sublist (List.filter_sublist.map _))

private theorem Integrity.getElem?_nodes_iff (h : g.Integrity) (i : Nat) :
    g.nodes[i]? = some n ↔ n ∈ g.nodes ∧ g.keys[i]? = some n.key := by
  constructor
  · intro hn
    exact ⟨List.mem_of_getElem? hn, by rw [getElem?_keys, hn, Option.map_some]⟩
  · intro hboth
    obtain ⟨hn, hi⟩ := hboth
    obtain ⟨j, hj⟩ := List.mem_iff_getElem?.mp hn
    have hkey : g.keys[j]? = some n.key := by rw [getElem?_keys, hj, Option.map_some]
    have hsame := ((h.indexOf?_eq_some_iff n.key i).mpr hi).symm.trans
      ((h.indexOf?_eq_some_iff n.key j).mpr hkey)
    rw [Option.some.inj hsame, hj]

theorem mem_placesBeside : j ∈ g.placesBeside i r d ↔ d.edge i r j ∈ g.edges := by
  cases d <;>
  · simp only [placesBeside, List.mem_map, List.mem_filter, Bool.and_eq_true, beq_iff_eq]
    constructor
    · rintro ⟨e, ⟨he, rfl, rfl⟩, rfl⟩
      exact he
    · intro he
      exact ⟨_, ⟨he, rfl, rfl⟩, rfl⟩

private theorem relationship?_edge : g.relationship? (d.edge i r j) = some (d.relationship k r k') ↔
    g.keys[i]? = some k ∧ g.keys[j]? = some k' := by
  rw [relationship?_eq_some_iff]
  cases d with
  | outgoing => simp [Direction.edge, Direction.relationship]
  | incoming => simp [Direction.edge, Direction.relationship, and_comm]

private theorem exists_edge_of_relationship {e : Edge}
    (h : g.relationship? e = some (d.relationship k r k')) : ∃ i j, e = d.edge i r j := by
  obtain ⟨-, -, hkind⟩ := relationship?_eq_some_iff.mp h
  obtain ⟨s, c, t⟩ := e
  cases d with
  | outgoing =>
    obtain rfl : r = c := hkind
    exact ⟨s, t, rfl⟩
  | incoming =>
    obtain rfl : r = c := hkind
    exact ⟨t, s, rfl⟩

theorem Integrity.mem_neighbors (h : g.Integrity) :
    n ∈ g.neighbors k r d ↔ n ∈ g.nodes ∧ d.relationship k r n.key ∈ g.relationships := by
  rw [mem_relationships]
  cases hi : g.indexOf? k with
  | none =>
    have hno : ¬∃ e ∈ g.edges, g.relationship? e = some (d.relationship k r n.key) := by
      rintro ⟨e, -, he⟩
      obtain ⟨i, j, rfl⟩ := exists_edge_of_relationship he
      have hk := (h.indexOf?_eq_some_iff k i).mpr (relationship?_edge.mp he).1
      rw [hi] at hk
      cases hk
    simp [neighbors, hi, hno]
  | some i =>
    have hk := (h.indexOf?_eq_some_iff k i).mp hi
    simp only [neighbors, hi, mem_sortNodes, List.mem_filterMap, mem_placesBeside,
      h.getElem?_nodes_iff]
    constructor
    · rintro ⟨j, hedge, hn, hj⟩
      exact ⟨hn, d.edge i r j, hedge, relationship?_edge.mpr ⟨hk, hj⟩⟩
    · rintro ⟨hn, e, hedge, he⟩
      obtain ⟨i', j, rfl⟩ := exists_edge_of_relationship he
      obtain ⟨hi', hj⟩ := relationship?_edge.mp he
      have hsame := hi.symm.trans ((h.indexOf?_eq_some_iff k i').mpr hi')
      cases hsame
      exact ⟨j, hedge, hn, hj⟩

private theorem Integrity.placesBeside_nodup (h : g.Integrity) (i : Nat) (r : RelationKind)
    (d : Direction) :
    (g.placesBeside i r d).Nodup := by
  cases d <;>
  · refine (h.edges_nodup.filter _).map_on fun e he e' he' ht => ?_
    simp only [List.mem_filter, Bool.and_eq_true, beq_iff_eq] at he he'
    obtain ⟨s, c, t⟩ := e
    obtain ⟨s', c', t'⟩ := e'
    simp_all

theorem Integrity.neighbors_nodup (h : g.Integrity) (k : NodeKey) (r : RelationKind) (d : Direction) :
    ((g.neighbors k r d).map Node.key).Nodup := by
  unfold neighbors
  split
  · rename_i i _
    refine ((sortNodes_perm _).map Node.key).nodup_iff.mpr ?_
    rw [List.map_filterMap]
    refine (h.placesBeside_nodup i r d).filterMap fun j j' key hj hj' => ?_
    rw [Option.mem_def, ← getElem?_keys, ← h.indexOf?_eq_some_iff] at hj hj'
    exact Option.some.inj (hj.symm.trans hj')
  · exact .nil

theorem Integrity.mem_neighbors_outgoing (h : g.Integrity) :
    n ∈ g.neighbors k r .outgoing ↔ n ∈ g.nodes ∧ ⟨k, r, n.key⟩ ∈ g.relationships :=
  h.mem_neighbors

theorem Integrity.neighbors_outgoing_nodup (h : g.Integrity) (k : NodeKey) (r : RelationKind) :
    ((g.neighbors k r .outgoing).map Node.key).Nodup :=
  h.neighbors_nodup k r .outgoing

end PropertyGraph

end StructureGraph.Graph
