import StructureGraph.Proofs.Graph.Snapshot

namespace StructureGraph.Graph

namespace PropertyGraph

variable {g g' g₁ g₂ : PropertyGraph} {tx : Transaction} {w : Write} {k : NodeKey} {n : Node}
  {r : Relationship}

/-- The second graph is the first one with nodes and edges merged into it. -/
inductive Grows (g : PropertyGraph) : PropertyGraph → Prop
  | refl : Grows g g
  | node {g' : PropertyGraph} (n : Node) : Grows g g' → Grows g (g'.mergeNode n)
  | edge {g' : PropertyGraph} (e : Edge) : Grows g g' → Grows g (g'.mergeEdge e)

theorem Grows.trans (h₁ : Grows g g₁) (h₂ : Grows g₁ g₂) : Grows g g₂ := by
  induction h₂ with
  | refl => exact h₁
  | node n _ ih => exact .node n ih
  | edge e _ ih => exact .edge e ih

private theorem grows_write (g : PropertyGraph) (w : Write) : Grows g (g.write w).1 := by
  cases w with
  | node n => exact .node n .refl
  | relationship r =>
    simp only [write]
    split
    · exact .edge _ .refl
    · exact .refl

theorem grows_execute (g : PropertyGraph) (tx : Transaction) : Grows g (g.execute tx).1 :=
  execute_keeps (P := Grows g) (fun g₁ w h => h.trans (grows_write g₁ w)) .refl tx

theorem grows_apply (g : PropertyGraph) (tx : Transaction) : Grows g (g.apply tx).1 := by
  unfold apply
  split
  · exact .refl
  · exact grows_execute g tx

theorem grows_ofText {text : String} (h : Snapshot.ofText text = .ok g) : Grows .empty g := by
  obtain ⟨c, -, hload⟩ := Snapshot.ofText_eq_ok_iff.mp h
  obtain ⟨s, hs⟩ := Snapshot.execute_writes_of_load hload
  have hgrows := grows_execute .empty c.writes
  rwa [hs] at hgrows

private theorem Grows.nodes_prefix (h : Grows g g') : g.nodes <+: g'.nodes := by
  induction h with
  | refl => exact List.prefix_rfl
  | node n _ ih =>
    refine ih.trans ?_
    unfold mergeNode
    split
    · exact List.prefix_rfl
    · exact List.prefix_append _ _
  | edge e _ ih => rwa [nodes_mergeEdge]

private theorem Grows.edges_prefix (h : Grows g g') : g.edges <+: g'.edges := by
  induction h with
  | refl => exact List.prefix_rfl
  | node n _ ih => rwa [edges_mergeNode]
  | edge e _ ih =>
    refine ih.trans ?_
    unfold mergeEdge
    split
    · exact List.prefix_rfl
    · exact List.prefix_append _ _

theorem Grows.mem_keys (h : Grows g g') (hk : k ∈ g.keys) : k ∈ g'.keys := by
  obtain ⟨n, hn, rfl⟩ := PropertyGraph.mem_keys.mp hk
  exact PropertyGraph.mem_keys.mpr ⟨n, h.nodes_prefix.subset hn, rfl⟩

/-- An edge between nodes that are there stands for the same relationship ever after. -/
theorem Grows.relationship?_eq (h : Grows g g') {e : Edge}
    (he : e.source < g.nodes.length ∧ e.target < g.nodes.length) :
    g'.relationship? e = g.relationship? e := by
  obtain ⟨more, hmore⟩ := h.nodes_prefix
  simp only [relationship?, ← hmore, List.getElem?_append_left he.1, List.getElem?_append_left he.2]

private theorem Grows.relationships_prefix (hg : g.Integrity) (h : Grows g g') :
    g.relationships <+: g'.relationships := by
  obtain ⟨more, hmore⟩ := h.edges_prefix
  have hold : g.edges.filterMap g'.relationship? = g.relationships :=
    List.filterMap_congr fun e he => h.relationship?_eq (hg.ends_stored e he)
  rw [relationships.eq_def g', ← hmore, List.filterMap_append, hold]
  exact List.prefix_append _ _

private theorem Grows.node?_eq_some (hg : g.Integrity) (hg' : g'.Integrity) (h : Grows g g')
    (hn : g.node? k = some n) : g'.node? k = some n := by
  obtain ⟨hmem, hkey⟩ := hg.node?_eq_some_iff.mp hn
  exact hg'.node?_eq_some_iff.mpr ⟨h.nodes_prefix.subset hmem, hkey⟩

/-- All of the first graph is in the second: nodes, with their properties, and edges, each at its
place in the order. -/
structure Extends (g g' : PropertyGraph) : Prop where
  nodes : g.nodes <+: g'.nodes
  edges : g.edges <+: g'.edges
  relationships : g.relationships <+: g'.relationships
  node? : ∀ k n, g.node? k = some n → g'.node? k = some n

theorem Grows.extends (hg : g.Integrity) (hg' : g'.Integrity) (h : Grows g g') : Extends g g' where
  nodes := h.nodes_prefix
  edges := h.edges_prefix
  relationships := h.relationships_prefix hg
  node? _ _ := h.node?_eq_some hg hg'

/-- The index lists the keys as they were added, the newest first. -/
def Indexed (g : PropertyGraph) : Prop := g.index.entries = g.keys.zipIdx.reverse

theorem indexed_empty : empty.Indexed := rfl

theorem Indexed.mergeNode (h : g.Indexed) (n : Node) : (g.mergeNode n).Indexed := by
  unfold PropertyGraph.mergeNode
  split
  · exact h
  · unfold Indexed at h ⊢
    rw [keys_append, List.zipIdx_append, List.reverse_append, ← h, length_keys]
    simp [KeyIndex.insert]

theorem Indexed.mergeEdge (h : g.Indexed) (e : Edge) : (g.mergeEdge e).Indexed := by
  unfold Indexed at h ⊢
  rw [index_mergeEdge, keys_mergeEdge, h]

theorem Grows.indexed (hg : g.Indexed) (h : Grows g g') : g'.Indexed := by
  induction h with
  | refl => exact hg
  | node n _ ih => exact ih.mergeNode n
  | edge e _ ih => exact ih.mergeEdge e

/-- Nodes and edges in their order are all that there is to a graph. -/
theorem Indexed.ext (h : g.Indexed) (h' : g'.Indexed) (hnodes : g.nodes = g'.nodes)
    (hedges : g.edges = g'.edges) : g = g' := by
  obtain ⟨ns, es, ⟨x⟩⟩ := g
  obtain ⟨ns', es', ⟨x'⟩⟩ := g'
  simp only [Indexed, keys] at h h'
  simp only at hnodes hedges
  rw [h, h', hnodes, hedges]

end PropertyGraph

/-- What a write asks for is there. -/
def Write.IsMade (g : PropertyGraph) : Write → Prop
  | .node n => n.key ∈ g.keys
  | .relationship r => r ∈ g.relationships

theorem Accepts.mono {known known' : NodeKey → Prop} {tx : Transaction}
    (hk : ∀ k, known k → known' k) (h : Accepts known tx) : Accepts known' tx := by
  intro i w hw
  exact (h i w hw).mono fun k hknown => hknown.imp_left (hk k)

namespace PropertyGraph

variable {g g₁ g₂ : PropertyGraph} {tx : Transaction} {w : Write} {s : WriteSummary}

theorem Effect.isMade (h : Effect g tx g₁ s) (hw : w ∈ tx) : w.IsMade g₁ := by
  cases w with
  | node n => exact (h.mem_keys n.key).mpr (.inr (mem_mergedKeys.mpr ⟨n, hw, rfl⟩))
  | relationship r => exact (h.mem_relationships r).mpr (.inr hw)

theorem Grows.isMade (hg : g.Integrity) (h : Grows g g₁) (hw : w.IsMade g) : w.IsMade g₁ := by
  cases w with
  | node n => exact h.mem_keys hw
  | relationship r => exact (h.relationships_prefix hg).subset hw

private theorem write_of_isMade (h : g.Integrity) (hw : w.IsMade g) : g.write w = (g, .ok .empty) := by
  cases w with
  | node n =>
    have hsame : g.mergeNode n = g := mergeNode_of_mem h hw
    have hthere : g.hasNode n.key = true := h.hasNode_iff.mpr hw
    simp [write, hsame, hthere, WriteSummary.empty]
  | relationship r =>
    obtain ⟨e, he, hr⟩ := mem_relationships.mp hw
    have hedge : g.edge? r = some e := h.edge?_eq_some_iff_relationship?.mpr hr
    have hsame : g.mergeEdge e = g := if_pos (List.contains_iff_mem.mpr he)
    simp [write, hedge, hsame, he, WriteSummary.empty]

private theorem execute_of_isMade (h : g.Integrity) (htx : ∀ w ∈ tx, w.IsMade g) :
    g.execute tx = (g, .ok .empty) := by
  induction tx with
  | nil => rfl
  | cons w ws ih =>
    obtain ⟨hw, hws⟩ := List.forall_mem_cons.mp htx
    simp [execute, write_of_isMade h hw, ih hws, Except.map, WriteSummary.add, WriteSummary.empty]

/-- A transaction that was made is made again in vain, however the graph has grown since. -/
theorem apply_again (h : g.Integrity) (htx : g.apply tx = (g₁, .ok s)) (hgrows : Grows g₁ g₂)
    (h₂ : g₂.Integrity) : g₂.apply tx = (g₂, .ok .empty) := by
  have heffect := apply_effect h htx
  have hfirst : Accepts (· ∈ g.keys) tx := (apply_eq_ok_iff h tx).mp ⟨s, by rw [htx]⟩
  have haccepts : Accepts (· ∈ g₂.keys) tx := hfirst.mono fun k hk =>
    hgrows.mem_keys ((heffect.mem_keys k).mpr (.inl hk))
  have hmade : ∀ w ∈ tx, w.IsMade g₂ := fun w hw =>
    hgrows.isMade heffect.integrity (heffect.isMade hw)
  unfold apply
  rw [(check_eq_ok_iff h₂ tx).mpr haccepts]
  exact execute_of_isMade h₂ hmade

end PropertyGraph

end StructureGraph.Graph
