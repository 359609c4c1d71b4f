import Mathlib.Algebra.BigOperators.Group.Finset.Basic
import StructureGraph.Proofs.Graph.Query
import StructureGraph.Proofs.Graph.Session

namespace StructureGraph.Graph

/-- Where each of some distinct values is counted in a list of them, all of the list is counted once. -/
theorem sum_count_of_nodup {α : Type} [DecidableEq α] {values : List α} (hvalues : values.Nodup)
    {xs : List α} (h : ∀ x ∈ xs, x ∈ values) : (values.map fun v => xs.count v).sum = xs.length := by
  have hcard := Multiset.sum_count_eq_card (s := values.toFinset) (m := ↑xs) (by simpa using h)
  rw [List.sum_toFinset _ hvalues] at hcard
  simpa using hcard

namespace PropertyGraph

variable {g : PropertyGraph} {k : NodeKey} {n : Node} {r : RelationKind} {d : Direction} {i : Nat}

private theorem sortNodes_increasing {ns : List Node} (h : (ns.map Node.key).Nodup) :
    (sortNodes ns).Pairwise fun a b => a.key < b.key := by
  have hdistinct : ((sortNodes ns).map Node.key).Nodup := ((sortNodes_perm ns).map _).nodup_iff.mpr h
  refine ((sortNodes_sorted ns).and (List.pairwise_map.mp hdistinct)).imp fun {a b} hboth => ?_
  exact NodeKey.lt_of_le_of_ne hboth.1 hboth.2

theorem Integrity.nodesOfKind_increasing (h : g.Integrity) (c : NodeKind) :
    (g.nodesOfKind c).Pairwise fun a b => a.key < b.key :=
  sortNodes_increasing (h.keys_nodup.sublist (List.filter_sublist.map _))

private theorem Integrity.neighbors_increasing (h : g.Integrity) (k : NodeKey) (r : RelationKind)
    (d : Direction) : (g.neighbors k r d).Pairwise fun a b => a.key < b.key := by
  have hdistinct := h.neighbors_nodup k r d
  unfold neighbors at hdistinct ⊢
  split
  · rename_i i hi
    rw [hi] at hdistinct
    exact sortNodes_increasing (((sortNodes_perm _).map _).nodup_iff.mp hdistinct)
  · exact .nil

private theorem Integrity.nodup_nodes (h : g.Integrity) : g.nodes.Nodup := h.keys_nodup.of_map

/-- The lists of all kinds together hold each node once. -/
theorem Integrity.nodesOfKinds_perm (h : g.Integrity) :
    (NodeKind.all.flatMap g.nodesOfKind).Perm g.nodes := by
  have hkinds : NodeKind.all.Nodup := by decide
  have hdistinct : (NodeKind.all.flatMap g.nodesOfKind).Nodup := by
    refine List.nodup_flatMap.mpr ⟨fun c _ => (h.nodesOfKind_nodup c).of_map, ?_⟩
    refine hkinds.imp fun {c c'} hne n hn hn' => hne ?_
    rw [← (mem_nodesOfKind.mp hn).2, (mem_nodesOfKind.mp hn').2]
  refine (List.perm_ext_iff_of_nodup hdistinct h.nodup_nodes).mpr fun n => ?_
  simp only [List.mem_flatMap, mem_nodesOfKind]
  constructor
  · rintro ⟨c, -, hn, -⟩
    exact hn
  · intro hn
    exact ⟨n.key.kind, NodeKind.mem_all _, hn, rfl⟩

private theorem relationship?_eq_map_row? (e : Edge) :
    g.relationship? e = (g.row? e).map TraversalRow.relationship := by
  rw [relationship?, row?]
  cases g.nodes[e.source]? <;> cases g.nodes[e.target]? <;> rfl

private theorem map_relationship_traverse (g : PropertyGraph) :
    (g.traverse.map TraversalRow.relationship).Perm g.relationships := by
  have hrelationships :
      g.relationships = (g.edges.filterMap g.row?).map TraversalRow.relationship := by
    rw [relationships, List.map_filterMap]
    exact List.filterMap_congr fun e _ => relationship?_eq_map_row? e
  rw [hrelationships]
  exact (List.mergeSort_perm _ _).map _

private theorem Integrity.length_traverse (h : g.Integrity) :
    g.traverse.length = g.counts.relationships := by
  rw [← List.length_map TraversalRow.relationship, (map_relationship_traverse g).length_eq,
    h.length_relationships, counts]

private theorem mem_relationships_iff_row {x : Relationship} :
    x ∈ g.relationships ↔ ∃ row ∈ g.traverse, row.relationship = x := by
  rw [← (map_relationship_traverse g).mem_iff, List.mem_map]

private theorem Integrity.traverse_increasing (h : g.Integrity) : g.traverse.Pairwise (· < ·) := by
  have hsorted : g.traverse.Pairwise fun a b => a.le b :=
    List.pairwise_mergeSort
      (fun a b c hab hbc => by
        rw [TraversalRow.le_iff] at *
        exact hab.trans hbc)
      (fun a b => by
        rw [Bool.or_eq_true, TraversalRow.le_iff, TraversalRow.le_iff]
        exact le_total _ _)
      _
  have hdistinct : (g.traverse.map TraversalRow.relationship).Nodup :=
    (map_relationship_traverse g).nodup_iff.mpr h.relationships_nodup
  refine (hsorted.and (List.pairwise_map.mp hdistinct)).imp fun {a b} hboth => ?_
  rw [TraversalRow.lt_iff, lt_iff_le_and_ne]
  exact ⟨TraversalRow.le_iff.mp hboth.1, mt TraversalRow.relationship_eq_of_orderKey_eq hboth.2⟩

private theorem length_placesBeside (g : PropertyGraph) (i : Nat) (r : RelationKind) (d : Direction) :
    (g.placesBeside i r d).length = ((g.edges.filter (d.near · == i)).map Edge.kind).count r := by
  cases d <;>
  · rw [placesBeside, List.length_map, ← List.countP_eq_length_filter, List.count_eq_countP,
      List.countP_map, List.countP_filter]
    exact List.countP_congr fun e _ => by simp [Direction.near, and_comm]

private theorem Integrity.length_neighbors (h : g.Integrity) (hi : g.indexOf? k = some i) (r : RelationKind)
    (d : Direction) : (g.neighbors k r d).length = (g.placesBeside i r d).length := by
  simp only [neighbors, hi, sortNodes, List.length_mergeSort]
  refine List.filterMap_length_eq_length.mpr fun j hj => ?_
  have hstored := h.ends_stored _ (mem_placesBeside.mp hj)
  have hlt : j < g.nodes.length := by
    cases d with
    | outgoing => exact hstored.2
    | incoming => exact hstored.1
  rw [List.getElem?_eq_getElem hlt, Option.isSome_some]

/-- How many neighbors of all kinds and in both directions a key has. -/
def neighborCount (g : PropertyGraph) (k : NodeKey) : Nat :=
  (RelationKind.all.map fun r =>
    (g.neighbors k r .outgoing).length + (g.neighbors k r .incoming).length).sum

theorem Integrity.degreeAt_eq (h : g.Integrity) (hi : g.indexOf? k = some i) :
    g.degreeAt i = g.neighborCount k := by
  have hkinds : RelationKind.all.Nodup := by decide
  have hall : ∀ es : List Edge, ∀ r ∈ es.map Edge.kind, r ∈ RelationKind.all :=
    fun _ r _ => RelationKind.mem_all r
  simp only [neighborCount, h.length_neighbors hi, length_placesBeside]
  rw [List.sum_map_add, sum_count_of_nodup hkinds (hall _), sum_count_of_nodup hkinds (hall _),
    List.length_map, List.length_map, degreeAt, List.countP_eq_length_filter,
    List.countP_eq_length_filter]
  rfl

theorem Integrity.degree_of_mem (h : g.Integrity) (hk : k ∈ g.keys) :
    g.degree k = .ok (g.neighborCount k) := by
  obtain ⟨i, hi⟩ := Option.isSome_iff_exists.mp (h.indexOf?_isSome_iff.mpr hk)
  rw [degree, hi, ← h.degreeAt_eq hi]

private theorem Integrity.degree_of_not_mem (h : g.Integrity) (hk : k ∉ g.keys) :
    g.degree k = .error (.nodeNotFound k) := by
  rw [← h.indexOf?_isSome_iff, Option.not_isSome_iff_eq_none] at hk
  rw [degree, hk]

private theorem Integrity.mapM_degree (h : g.Integrity) :
    (g.nodes.mapM fun n => g.degree n.key) = .ok (g.keys.map g.neighborCount) := by
  have hall : ∀ ns ⊆ g.nodes, (ns.mapM fun n => g.degree n.key) =
      .ok ((ns.map Node.key).map g.neighborCount) := by
    intro ns hns
    induction ns with
    | nil => rfl
    | cons n ns ih =>
      obtain ⟨hn, hrest⟩ := List.cons_subset.mp hns
      rw [List.mapM_cons, h.degree_of_mem (mem_keys.mpr ⟨n, hn, rfl⟩), ih hrest]
      rfl
  exact hall g.nodes (List.Subset.refl _)

/-- Each relationship is seen from both its ends, twice from the one if they are the same. -/
theorem Integrity.sum_degrees (h : g.Integrity) :
    (g.keys.map g.neighborCount).sum = 2 * g.counts.relationships := by
  have hplaces : g.keys.map g.neighborCount = (List.range g.nodes.length).map g.degreeAt := by
    refine List.ext_getElem (by simp) fun i hi _ => ?_
    rw [List.getElem_map, List.getElem_map, List.getElem_range]
    refine (h.degreeAt_eq ((h.indexOf?_eq_some_iff _ i).mpr ?_)).symm
    exact List.getElem?_eq_getElem _
  have hsources : ∀ i ∈ g.edges.map Edge.source, i ∈ List.range g.nodes.length := by
    simpa using fun e he => (h.ends_stored e he).1
  have htargets : ∀ i ∈ g.edges.map Edge.target, i ∈ List.range g.nodes.length := by
    simpa using fun e he => (h.ends_stored e he).2
  have hdegree : g.degreeAt = fun i =>
      (g.edges.map Edge.source).count i + (g.edges.map Edge.target).count i := by
    funext i
    rw [degreeAt, List.count_eq_countP, List.count_eq_countP, List.countP_map, List.countP_map]
    rfl
  rw [hplaces, hdegree, List.sum_map_add, sum_count_of_nodup List.nodup_range hsources,
    sum_count_of_nodup List.nodup_range htargets, List.length_map, List.length_map]
  exact (Nat.two_mul _).symm

/-- What is read from a graph in one way agrees with what is read in another. -/
structure ReadsAlike (g : PropertyGraph) : Prop where
  rows_count : g.traverse.length = g.counts.relationships
  rows_increasing : g.traverse.Pairwise (· < ·)
  /-- The nodes of a row are those that are found by their keys. -/
  row_nodes : ∀ row ∈ g.traverse,
    g.node? row.source.key = some row.source ∧ g.node? row.target.key = some row.target
  outgoing_iff : ∀ s r t, t ∈ (g.neighbors s r .outgoing).map Node.key ↔
    ∃ row ∈ g.traverse, row.source.key = s ∧ row.kind = r ∧ row.target.key = t
  incoming_iff : ∀ s r t, s ∈ (g.neighbors t r .incoming).map Node.key ↔
    ∃ row ∈ g.traverse, row.source.key = s ∧ row.kind = r ∧ row.target.key = t
  neighbor_nodes : ∀ k r d, ∀ n ∈ g.neighbors k r d, g.node? n.key = some n
  neighbors_increasing : ∀ k r d, (g.neighbors k r d).Pairwise fun a b => a.key < b.key
  degree_eq : ∀ k, g.degree k =
    if (g.node? k).isSome then .ok (g.neighborCount k) else .error (.nodeNotFound k)
  degrees_sum : ∃ degrees, (g.nodes.mapM fun n => g.degree n.key) = .ok degrees ∧
    degrees.sum = 2 * g.counts.relationships
  kinds_increasing : ∀ c, (g.nodesOfKind c).Pairwise fun a b => a.key < b.key
  kinds_nodup : (NodeKind.all.flatMap g.nodesOfKind).Nodup
  kinds_count : (NodeKind.all.flatMap g.nodesOfKind).length = g.counts.nodes
  kinds_hold : ∀ n, n ∈ NodeKind.all.flatMap g.nodesOfKind ↔ g.node? n.key = some n

private theorem Integrity.mem_neighbor_keys (h : g.Integrity) {k' : NodeKey} :
    k' ∈ (g.neighbors k r d).map Node.key ↔
      ∃ row ∈ g.traverse, row.relationship = d.relationship k r k' := by
  rw [← mem_relationships_iff_row, List.mem_map]
  constructor
  · rintro ⟨n, hn, rfl⟩
    exact (h.mem_neighbors.mp hn).2
  · intro hrelated
    have hstored : k' ∈ g.keys := by
      cases d with
      | outgoing => exact target_mem_keys hrelated
      | incoming => exact source_mem_keys hrelated
    obtain ⟨n, hn, rfl⟩ := mem_keys.mp hstored
    exact ⟨n, h.mem_neighbors.mpr ⟨hn, hrelated⟩, rfl⟩

private theorem Integrity.nodes_of_row (h : g.Integrity) {row : TraversalRow} (hrow : row ∈ g.traverse) :
    g.node? row.source.key = some row.source ∧ g.node? row.target.key = some row.target := by
  obtain ⟨e, -, he⟩ := List.mem_filterMap.mp (List.mem_mergeSort.mp hrow)
  rw [row?] at he
  split at he
  · rename_i source target hsource htarget
    cases he
    exact ⟨h.node?_eq_some_iff.mpr ⟨List.mem_of_getElem? hsource, rfl⟩,
      h.node?_eq_some_iff.mpr ⟨List.mem_of_getElem? htarget, rfl⟩⟩
  · cases he

private theorem Integrity.degree_eq (h : g.Integrity) (k : NodeKey) : g.degree k =
    if (g.node? k).isSome then .ok (g.neighborCount k) else .error (.nodeNotFound k) := by
  by_cases hk : k ∈ g.keys
  · have hsome : (g.node? k).isSome := by
      rwa [← Option.ne_none_iff_isSome, ne_eq, h.node?_eq_none_iff, not_not]
    rw [h.degree_of_mem hk, if_pos hsome]
  · rw [h.degree_of_not_mem hk, h.node?_eq_none_iff.mpr hk]
    rfl

private theorem Integrity.mem_nodesOfKinds (h : g.Integrity) :
    n ∈ NodeKind.all.flatMap g.nodesOfKind ↔ g.node? n.key = some n := by
  rw [h.nodesOfKinds_perm.mem_iff, h.node?_eq_some_iff, and_iff_left rfl]

end PropertyGraph

/-- All reads of a graph that a store holds describe one graph. -/
theorem reads_describe_one_graph {g : PropertyGraph} (hg : Reachable g) : g.ReadsAlike where
  rows_count := hg.integrity.length_traverse
  rows_increasing := hg.integrity.traverse_increasing
  row_nodes _ hrow := hg.integrity.nodes_of_row hrow
  outgoing_iff s r t := by
    rw [hg.integrity.mem_neighbor_keys]
    simp only [Direction.relationship, TraversalRow.relationship_eq_iff]
  incoming_iff s r t := by
    rw [hg.integrity.mem_neighbor_keys]
    simp only [Direction.relationship, TraversalRow.relationship_eq_iff]
  neighbor_nodes _ _ _ _ hn :=
    hg.integrity.node?_eq_some_iff.mpr ⟨(hg.integrity.mem_neighbors.mp hn).1, rfl⟩
  neighbors_increasing := hg.integrity.neighbors_increasing
  degree_eq := hg.integrity.degree_eq
  degrees_sum := ⟨_, hg.integrity.mapM_degree, hg.integrity.sum_degrees⟩
  kinds_increasing := hg.integrity.nodesOfKind_increasing
  kinds_nodup := hg.integrity.nodesOfKinds_perm.nodup_iff.mpr hg.integrity.nodup_nodes
  kinds_count := hg.integrity.nodesOfKinds_perm.length_eq
  kinds_hold _ := hg.integrity.mem_nodesOfKinds

/-- A class that extends itself and another one. -/
theorem reads_describe_one_graph_self :
    let a := NodeKey.ofClass "A"
    let b := NodeKey.ofClass "B"
    let g := (PropertyGraph.empty.apply [.node ⟨a, .empty⟩, .node ⟨b, .empty⟩,
      .relationship ⟨a, .inherits, b⟩, .relationship ⟨a, .inherits, a⟩]).1
    Reachable g ∧ g.ReadsAlike ∧ g.degree a = .ok 3 ∧ g.degree b = .ok 1 ∧
      g.counts = ⟨2, 2⟩ := by
  intro a b g
  have hg : Reachable g := reachable_empty.apply _
  exact ⟨hg, reads_describe_one_graph hg, by decide +kernel, by decide +kernel, by decide +kernel⟩

end StructureGraph.Graph
