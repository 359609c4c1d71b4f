import Mathlib.Data.List.Nodup
import StructureGraph.Graph.Basic

namespace StructureGraph.Graph.PropertyGraph

/-- The keys of the nodes, in the order of the nodes. -/
def keys (g : PropertyGraph) : List NodeKey := g.nodes.map Node.key

structure Integrity (g : PropertyGraph) : Prop where
  keys_nodup : g.keys.Nodup
  /-- The index leads to the node that carries a key, and to nothing else. -/
  indexOf?_eq_some_iff : ∀ k i, g.indexOf? k = some i ↔ g.keys[i]? = some k
  ends_stored : ∀ e ∈ g.edges, e.source < g.nodes.length ∧ e.target < g.nodes.length
  edges_nodup : g.edges.Nodup

/-- Only valid keys, and only relationships between nodes of the kinds that they connect. -/
structure Admissible (g : PropertyGraph) : Prop where
  keys_valid : ∀ k ∈ g.keys, k.isValid
  well_typed : ∀ r ∈ g.relationships,
    r.source.kind = r.kind.sourceKind ∧ r.target.kind = r.kind.targetKind

theorem integrity_empty : empty.Integrity where
  keys_nodup := .nil
  indexOf?_eq_some_iff k i := by simp [indexOf?, empty, keys]
  ends_stored e he := by simp [empty] at he
  edges_nodup := .nil

theorem admissible_empty : empty.Admissible where
  keys_valid k hk := by simp [empty, keys] at hk
  well_typed r hr := by simp [empty, relationships] at hr

variable {g : PropertyGraph} {k : NodeKey} {n : Node} {e : Edge} {r : Relationship}

@[simp] theorem length_keys : g.keys.length = g.nodes.length := by simp [keys]

theorem mem_keys : k ∈ g.keys ↔ ∃ n ∈ g.nodes, n.key = k := by simp [keys]

theorem getElem?_keys (i : Nat) : g.keys[i]? = g.nodes[i]?.map Node.key := by simp [keys]

theorem Integrity.indexOf?_isSome_iff (h : g.Integrity) : (g.indexOf? k).isSome ↔ k ∈ g.keys := by
  rw [Option.isSome_iff_exists, List.mem_iff_getElem?]
  exact exists_congr fun i => h.indexOf?_eq_some_iff k i

theorem Integrity.hasNode_iff (h : g.Integrity) : g.hasNode k ↔ k ∈ g.keys :=
  h.indexOf?_isSome_iff

private theorem Integrity.hasNode_eq_false_iff (h : g.Integrity) : g.hasNode k = false ↔ k ∉ g.keys := by
  rw [← h.hasNode_iff, Bool.not_eq_true]

theorem Integrity.node?_eq_some_iff (h : g.Integrity) :
    g.node? k = some n ↔ n ∈ g.nodes ∧ n.key = k := by
  rw [node?, Option.bind_eq_some_iff]
  constructor
  · intro hexists
    obtain ⟨i, hi, hn⟩ := hexists
    have hk := (h.indexOf?_eq_some_iff k i).mp hi
    rw [getElem?_keys, hn, Option.map_some, Option.some.injEq] at hk
    exact ⟨List.mem_of_getElem? hn, hk⟩
  · intro hboth
    obtain ⟨hn, rfl⟩ := hboth
    obtain ⟨i, hi⟩ := List.mem_iff_getElem?.mp hn
    exact ⟨i, (h.indexOf?_eq_some_iff _ i).mpr (by simp [getElem?_keys, hi]), hi⟩

theorem Integrity.node?_eq_none_iff (h : g.Integrity) : g.node? k = none ↔ k ∉ g.keys := by
  rw [Option.eq_none_iff_forall_ne_some, mem_keys]
  simp only [ne_eq, h.node?_eq_some_iff, not_and, not_exists]

theorem edge?_eq_some_iff : g.edge? r = some e ↔
    g.indexOf? r.source = some e.source ∧ g.indexOf? r.target = some e.target ∧ r.kind = e.kind := by
  obtain ⟨i, k, j⟩ := e
  unfold edge?
  split
  · rename_i hs ht
    simp only [Option.some.injEq, Edge.mk.injEq, hs, ht]
    tauto
  · rename_i hne
    constructor
    · intro h
      cases h
    · intro hboth
      obtain ⟨hs, ht, -⟩ := hboth
      exact (hne _ _ hs ht).elim

theorem relationship?_eq_some_iff : g.relationship? e = some r ↔
    g.keys[e.source]? = some r.source ∧ g.keys[e.target]? = some r.target ∧ r.kind = e.kind := by
  obtain ⟨s, k, t⟩ := r
  simp only [relationship?, getElem?_keys]
  cases g.nodes[e.source]? with
  | none => simp
  | some a =>
    cases g.nodes[e.target]? with
    | none => simp
    | some b =>
      simp only [Option.some.injEq, Relationship.mk.injEq, Option.map_some]
      tauto

/-- The edge between two keys and the keys at the ends of an edge are each other's inverses. -/
theorem Integrity.edge?_eq_some_iff_relationship? (h : g.Integrity) :
    g.edge? r = some e ↔ g.relationship? e = some r := by
  rw [edge?_eq_some_iff, relationship?_eq_some_iff, h.indexOf?_eq_some_iff, h.indexOf?_eq_some_iff]

theorem Integrity.edge?_isSome_iff (h : g.Integrity) :
    (g.edge? r).isSome ↔ r.source ∈ g.keys ∧ r.target ∈ g.keys := by
  simp only [← h.indexOf?_isSome_iff, Option.isSome_iff_exists, edge?_eq_some_iff]
  constructor
  · intro hexists
    obtain ⟨e, hs, ht, -⟩ := hexists
    exact ⟨⟨_, hs⟩, ⟨_, ht⟩⟩
  · intro hboth
    obtain ⟨⟨i, hi⟩, ⟨j, hj⟩⟩ := hboth
    exact ⟨⟨i, r.kind, j⟩, hi, hj, rfl⟩

theorem Integrity.ends_of_edge? (h : g.Integrity) (he : g.edge? r = some e) :
    e.source < g.nodes.length ∧ e.target < g.nodes.length := by
  obtain ⟨hs, ht, -⟩ := edge?_eq_some_iff.mp he
  have hs := List.getElem?_eq_some_iff.mp ((h.indexOf?_eq_some_iff _ _).mp hs)
  have ht := List.getElem?_eq_some_iff.mp ((h.indexOf?_eq_some_iff _ _).mp ht)
  exact ⟨by simpa using hs.1, by simpa using ht.1⟩

theorem mem_relationships : r ∈ g.relationships ↔ ∃ e ∈ g.edges, g.relationship? e = some r :=
  List.mem_filterMap

theorem source_mem_keys (hr : r ∈ g.relationships) : r.source ∈ g.keys := by
  obtain ⟨e, -, he⟩ := mem_relationships.mp hr
  exact List.mem_of_getElem? (relationship?_eq_some_iff.mp he).1

theorem target_mem_keys (hr : r ∈ g.relationships) : r.target ∈ g.keys := by
  obtain ⟨e, -, he⟩ := mem_relationships.mp hr
  exact List.mem_of_getElem? (relationship?_eq_some_iff.mp he).2.1

private theorem Integrity.relationship?_isSome (h : g.Integrity) (he : e ∈ g.edges) :
    (g.relationship? e).isSome := by
  obtain ⟨hs, ht⟩ := h.ends_stored e he
  simp [relationship?, List.getElem?_eq_getElem hs, List.getElem?_eq_getElem ht]

theorem Integrity.relationships_nodup (h : g.Integrity) : g.relationships.Nodup := by
  refine h.edges_nodup.filterMap fun e e' r he he' => ?_
  have h1 := h.edge?_eq_some_iff_relationship?.mpr he
  have h2 := h.edge?_eq_some_iff_relationship?.mpr he'
  exact Option.some.inj (h1.symm.trans h2)

theorem Integrity.length_relationships (h : g.Integrity) :
    g.relationships.length = g.edges.length :=
  List.filterMap_length_eq_length.mpr fun _ he => h.relationship?_isSome he

theorem mergeNode_of_mem (h : g.Integrity) (hn : n.key ∈ g.keys) : g.mergeNode n = g := by
  simp [mergeNode, h.hasNode_iff.mpr hn]

theorem mergeNode_of_not_mem (h : g.Integrity) (hn : n.key ∉ g.keys) :
    g.mergeNode n =
      { g with nodes := g.nodes ++ [n], index := g.index.insert n.key g.nodes.length } := by
  simp [mergeNode, h.hasNode_eq_false_iff.mpr hn]

theorem keys_append (n : Node) (x : KeyIndex) :
    keys { g with nodes := g.nodes ++ [n], index := x } = g.keys ++ [n.key] := by
  simp [keys]

theorem indexOf?_insert (k : NodeKey) (n : Node) :
    indexOf? { g with nodes := g.nodes ++ [n], index := g.index.insert n.key g.nodes.length } k =
      if k = n.key then some g.nodes.length else g.indexOf? k :=
  g.index.get?_insert n.key k g.nodes.length

/-- The index finds all keys once a new one is put behind them. -/
theorem Integrity.getElem?_keys_append (h : g.Integrity) (hn : n.key ∉ g.keys) (k : NodeKey) (i : Nat) :
    (if k = n.key then some g.nodes.length else g.indexOf? k) = some i ↔
      (g.keys ++ [n.key])[i]? = some k := by
  rw [List.getElem?_append, length_keys]
  by_cases hk : k = n.key
  · subst hk
    have hold : g.keys[i]? ≠ some n.key := fun hi => hn (List.mem_of_getElem? hi)
    rw [if_pos rfl, Option.some.injEq]
    split
    · rename_i hlt
      exact iff_of_false (by omega) hold
    · rename_i hge
      rw [List.getElem?_singleton]
      constructor
      · intro hi
        rw [if_pos (by omega)]
      · intro hi
        split at hi
        · omega
        · cases hi
  · rw [if_neg hk, h.indexOf?_eq_some_iff]
    split
    · rfl
    · rename_i hge
      rw [List.getElem?_eq_none (by rw [length_keys]; omega), List.getElem?_singleton]
      refine iff_of_false (by simp) ?_
      split
      · simpa using Ne.symm hk
      · simp

theorem Integrity.mergeNode (h : g.Integrity) (n : Node) : (g.mergeNode n).Integrity := by
  by_cases hn : n.key ∈ g.keys
  · rwa [mergeNode_of_mem h hn]
  rw [mergeNode_of_not_mem h hn]
  refine ⟨?_, fun k i => ?_, fun e he => ?_, h.edges_nodup⟩
  · rw [keys_append]
    exact List.nodup_append.mpr ⟨h.keys_nodup, List.nodup_singleton _, by
      intro k hk k' hk' heq
      exact hn (List.mem_singleton.mp hk' ▸ heq ▸ hk)⟩
  · rw [indexOf?_insert, keys_append]
    exact h.getElem?_keys_append hn k i
  · obtain ⟨hs, ht⟩ := h.ends_stored e he
    simp only [List.length_append, List.length_singleton]
    omega

theorem mem_keys_mergeNode (h : g.Integrity) : k ∈ (g.mergeNode n).keys ↔ k ∈ g.keys ∨ k = n.key := by
  by_cases hn : n.key ∈ g.keys
  · rw [mergeNode_of_mem h hn]
    exact ⟨.inl, fun hk => hk.elim id fun hk => hk ▸ hn⟩
  · rw [mergeNode_of_not_mem h hn, keys_append, List.mem_append, List.mem_singleton]

theorem node?_mergeNode (h : g.Integrity) : (g.mergeNode n).node? k =
    (g.node? k).or (if n.key = k then some n else none) := by
  by_cases hn : n.key ∈ g.keys
  · rw [mergeNode_of_mem h hn]
    split
    · rename_i hk
      cases hg : g.node? k with
      | none => exact (h.node?_eq_none_iff.mp hg (hk ▸ hn)).elim
      | some m => rfl
    · simp
  · rw [Option.ext_iff]
    intro m
    have hnodes : (g.mergeNode n).nodes = g.nodes ++ [n] := by rw [mergeNode_of_not_mem h hn]
    rw [(h.mergeNode n).node?_eq_some_iff, hnodes, List.mem_append, List.mem_singleton]
    by_cases hk : n.key = k
    · subst hk
      rw [h.node?_eq_none_iff.mpr hn, if_pos rfl, Option.none_or, Option.some.injEq]
      constructor
      · intro hboth
        rcases hboth with ⟨hm | rfl, hk⟩
        · exact (hn (mem_keys.mpr ⟨m, hm, hk⟩)).elim
        · rfl
      · intro heq
        subst heq
        exact ⟨.inr rfl, rfl⟩
    · rw [if_neg hk, Option.or_none, h.node?_eq_some_iff]
      constructor
      · intro hboth
        rcases hboth with ⟨hm | rfl, hm'⟩
        · exact ⟨hm, hm'⟩
        · exact (hk hm').elim
      · intro hboth
        obtain ⟨hm, hm'⟩ := hboth
        exact ⟨.inl hm, hm'⟩

/-- The edges that are there stand for what they stood for before. -/
theorem relationships_mergeNode (h : g.Integrity) (n : Node) :
    (g.mergeNode n).relationships = g.relationships := by
  by_cases hn : n.key ∈ g.keys
  · rw [mergeNode_of_mem h hn]
  rw [mergeNode_of_not_mem h hn]
  refine List.filterMap_congr fun e he => ?_
  obtain ⟨hs, ht⟩ := h.ends_stored e he
  simp only [relationship?, List.getElem?_append_left hs, List.getElem?_append_left ht]

@[simp] theorem edges_mergeNode (g : PropertyGraph) (n : Node) : (g.mergeNode n).edges = g.edges := by
  unfold mergeNode
  split <;> rfl

theorem length_nodes_mergeNode (g : PropertyGraph) (n : Node) :
    (g.mergeNode n).nodes.length = g.nodes.length + if g.hasNode n.key then 0 else 1 := by
  unfold mergeNode
  split <;> simp

@[simp] theorem nodes_mergeEdge (g : PropertyGraph) (e : Edge) : (g.mergeEdge e).nodes = g.nodes := by
  unfold mergeEdge
  split <;> rfl

@[simp] theorem index_mergeEdge (g : PropertyGraph) (e : Edge) : (g.mergeEdge e).index = g.index := by
  unfold mergeEdge
  split <;> rfl

@[simp] theorem keys_mergeEdge (g : PropertyGraph) (e : Edge) : (g.mergeEdge e).keys = g.keys := by
  simp [keys]

@[simp] theorem indexOf?_mergeEdge (g : PropertyGraph) (e : Edge) (k : NodeKey) :
    (g.mergeEdge e).indexOf? k = g.indexOf? k := by
  simp [indexOf?]

@[simp] theorem node?_mergeEdge (g : PropertyGraph) (e : Edge) (k : NodeKey) :
    (g.mergeEdge e).node? k = g.node? k := by
  simp [node?]

@[simp] theorem relationship?_mergeEdge (g : PropertyGraph) (e e' : Edge) :
    (g.mergeEdge e).relationship? e' = g.relationship? e' := by
  simp [relationship?]

private theorem mem_edges_mergeEdge (e e' : Edge) : e' ∈ (g.mergeEdge e).edges ↔ e' ∈ g.edges ∨ e' = e := by
  unfold mergeEdge
  split
  · rename_i he
    have he : e ∈ g.edges := List.contains_iff_mem.mp he
    exact ⟨.inl, fun h => h.elim id fun h => h ▸ he⟩
  · simp

theorem length_edges_mergeEdge (g : PropertyGraph) (e : Edge) :
    (g.mergeEdge e).edges.length = g.edges.length + if g.edges.contains e then 0 else 1 := by
  unfold mergeEdge
  split <;> simp

theorem Integrity.mergeEdge (h : g.Integrity)
    (he : e.source < g.nodes.length ∧ e.target < g.nodes.length) : (g.mergeEdge e).Integrity := by
  refine ⟨by simpa using h.keys_nodup, by simpa using h.indexOf?_eq_some_iff, fun e' he' => ?_, ?_⟩
  · rw [nodes_mergeEdge]
    rcases (mem_edges_mergeEdge e e').mp he' with he' | rfl
    · exact h.ends_stored e' he'
    · exact he
  · unfold PropertyGraph.mergeEdge
    split
    · exact h.edges_nodup
    · rename_i hnew
      have hnew : e ∉ g.edges := fun hm => hnew (List.contains_iff_mem.mpr hm)
      exact List.nodup_append.mpr ⟨h.edges_nodup, List.nodup_singleton _, by
        intro e' he' e'' he'' heq
        exact hnew (List.mem_singleton.mp he'' ▸ heq ▸ he')⟩

theorem mem_relationships_mergeEdge (h : g.Integrity) (he : g.edge? r = some e)
    (r' : Relationship) : r' ∈ (g.mergeEdge e).relationships ↔ r' ∈ g.relationships ∨ r' = r := by
  have hr := h.edge?_eq_some_iff_relationship?.mp he
  simp only [mem_relationships, mem_edges_mergeEdge, relationship?_mergeEdge]
  constructor
  · intro hexists
    rcases hexists with ⟨e', he' | rfl, hr'⟩
    · exact .inl ⟨e', he', hr'⟩
    · exact .inr (Option.some.inj (hr'.symm.trans hr))
  · intro heither
    rcases heither with ⟨e', he', hr'⟩ | rfl
    · exact ⟨e', .inl he', hr'⟩
    · exact ⟨e, .inr rfl, hr⟩

end StructureGraph.Graph.PropertyGraph
