import StructureGraph.Proofs.Graph.Reading
import StructureGraph.Proofs.Projection

namespace StructureGraph

namespace Graph.PropertyGraph

/-- A higher degree comes first, and of equal degrees the lesser key. -/
def Precedes (a b : Node × Nat) : Prop := b.2 < a.2 ∨ (a.2 = b.2 ∧ a.1.key < b.1.key)

/-- What nodes with their degrees are ordered by. -/
def rankKey (a : Node × Nat) : ℕᵒᵈ ×ₗ ℕ ×ₗ String := toLex (OrderDual.toDual a.2, a.1.key.orderKey)

variable {g : PropertyGraph} {c : NodeKind} {n : Node} {a b : Node × Nat} {limit : Nat}

private theorem precedes_iff : Precedes a b ↔ rankKey a < rankKey b := by
  rw [Precedes, NodeKey.lt_iff, rankKey, rankKey, Prod.Lex.toLex_lt_toLex, OrderDual.toDual_lt_toDual,
    OrderDual.toDual_inj]

private theorem connectedLe_iff : connectedLe a b ↔ rankKey a ≤ rankKey b := by
  rw [rankKey, rankKey, Prod.Lex.toLex_le_toLex, OrderDual.toDual_lt_toDual, OrderDual.toDual_inj,
    ← NodeKey.le_iff_orderKey, connectedLe, Bool.or_eq_true, Bool.and_eq_true, decide_eq_true_eq, beq_iff_eq]

private theorem key_eq_of_rankKey_eq (h : rankKey a = rankKey b) : a.1.key = b.1.key :=
  NodeKey.orderKey_injective (Prod.mk.inj (toLex.injective h)).2

private theorem mergeSort_connectedLe_sorted (l : List (Node × Nat)) :
    (l.mergeSort connectedLe).Pairwise fun a b => rankKey a ≤ rankKey b := by
  have htrans : ∀ a b d, connectedLe a b → connectedLe b d → connectedLe a d := by
    intro a b d hab hbd
    rw [connectedLe_iff] at *
    exact hab.trans hbd
  have htotal : ∀ a b, connectedLe a b || connectedLe b a := by
    intro a b
    rw [Bool.or_eq_true, connectedLe_iff, connectedLe_iff]
    exact le_total _ _
  exact (List.pairwise_mergeSort htrans htotal l).imp connectedLe_iff.mp

private theorem mergeSort_pair {α : Type} (le : α → α → Bool) (a b : α) :
    [a, b].mergeSort le = if le a b then [a, b] else [b, a] := by
  rw [List.mergeSort]
  simp [List.merge]

/-- A node of the graph that begins or ends a relationship. -/
def isConnected (g : PropertyGraph) (n : Node) : Bool :=
  match g.degree n.key with
  | .ok degree => decide (0 < degree)
  | .error _ => false

/-- How many nodes of a kind have relationships. -/
def connectedCount (g : PropertyGraph) (c : NodeKind) : Nat :=
  g.nodes.countP fun n => n.key.kind == c && g.isConnected n

/-- The connected nodes of a kind with their degrees, in their order. -/
def ranking (g : PropertyGraph) (c : NodeKind) : List (Node × Nat) :=
  ((g.nodes.filter fun n => n.key.kind == c && g.isConnected n).map
    fun n => (n, g.neighborCount n.key)).mergeSort connectedLe

private theorem Integrity.degree_of_mem_nodes (h : g.Integrity) (hn : n ∈ g.nodes) :
    g.degree n.key = .ok (g.neighborCount n.key) :=
  h.degree_of_mem (mem_keys.mpr ⟨n, hn, rfl⟩)

private theorem Integrity.isConnected_eq (h : g.Integrity) (hn : n ∈ g.nodes) :
    g.isConnected n = decide (0 < g.neighborCount n.key) := by
  rw [isConnected, h.degree_of_mem_nodes hn]

/-- The places of the nodes have the degrees of their keys. -/
theorem Integrity.map_degreeAt (h : g.Integrity) :
    (g.nodes.zipIdx.map fun x => (x.1, g.degreeAt x.2)) =
      g.nodes.map fun n => (n, g.neighborCount n.key) := by
  refine List.ext_getElem (by simp) fun i hi hi' => ?_
  simp only [List.getElem_map, List.getElem_zipIdx, Nat.zero_add, Prod.mk.injEq, true_and]
  refine h.degreeAt_eq ((h.indexOf?_eq_some_iff _ i).mpr ?_)
  rw [getElem?_keys, List.getElem?_eq_getElem (by simpa using hi'), Option.map_some]

private theorem Integrity.mostConnected_eq (h : g.Integrity) (c : NodeKind) (limit : Nat) :
    g.mostConnected c limit = (g.ranking c).take limit := by
  have hcandidates : (((g.nodes.zipIdx.filter (·.1.key.kind == c)).map fun x => (x.1, g.degreeAt x.2)).filter
        fun x => decide (0 < x.2)) =
      (g.nodes.filter fun n => n.key.kind == c && g.isConnected n).map
        fun n => (n, g.neighborCount n.key) := by
    have hplaces : (g.nodes.zipIdx.filter (·.1.key.kind == c)).map (fun x => (x.1, g.degreeAt x.2)) =
        (g.nodes.map fun n => (n, g.neighborCount n.key)).filter (·.1.key.kind == c) := by
      rw [← h.map_degreeAt, List.filter_map]
      rfl
    rw [hplaces, List.filter_filter, List.filter_map]
    refine congrArg _ (List.filter_congr fun n hn => ?_)
    rw [h.isConnected_eq hn, Bool.and_comm]
    rfl
  rw [mostConnected, hcandidates, ranking]

private theorem mem_ranking : a ∈ g.ranking c ↔
    (a.1 ∈ g.nodes ∧ a.1.key.kind = c ∧ g.isConnected a.1) ∧ a.2 = g.neighborCount a.1.key := by
  rw [ranking, List.mem_mergeSort, List.mem_map]
  simp only [List.mem_filter, Bool.and_eq_true, beq_iff_eq]
  constructor
  · rintro ⟨n, hn, rfl⟩
    exact ⟨hn, rfl⟩
  · rintro ⟨hn, hdegree⟩
    exact ⟨a.1, hn, Prod.ext rfl hdegree.symm⟩

private theorem Integrity.mem_ranking_iff (h : g.Integrity) : a ∈ g.ranking c ↔
    (a.1 ∈ g.nodes ∧ a.1.key.kind = c) ∧ g.degree a.1.key = .ok a.2 ∧ 0 < a.2 := by
  rw [mem_ranking]
  constructor
  · rintro ⟨⟨hn, hkind, hconnected⟩, hdegree⟩
    rw [h.isConnected_eq hn, decide_eq_true_eq, ← hdegree] at hconnected
    exact ⟨⟨hn, hkind⟩, hdegree ▸ h.degree_of_mem_nodes hn, hconnected⟩
  · rintro ⟨⟨hn, hkind⟩, hdegree, hpos⟩
    rw [h.degree_of_mem_nodes hn, Except.ok.injEq] at hdegree
    refine ⟨⟨hn, hkind, ?_⟩, hdegree.symm⟩
    rwa [h.isConnected_eq hn, decide_eq_true_eq, hdegree]

private theorem length_ranking (g : PropertyGraph) (c : NodeKind) :
    (g.ranking c).length = g.connectedCount c := by
  rw [ranking, List.length_mergeSort, List.length_map, connectedCount, List.countP_eq_length_filter]

private theorem Integrity.ranking_keys_nodup (h : g.Integrity) (c : NodeKind) :
    ((g.ranking c).map (·.1.key)).Nodup := by
  have hperm := (List.mergeSort_perm ((g.nodes.filter fun n => n.key.kind == c && g.isConnected n).map
    fun n => (n, g.neighborCount n.key)) connectedLe).map (·.1.key)
  refine hperm.nodup_iff.mpr ?_
  rw [List.map_map]
  exact h.keys_nodup.sublist (List.filter_sublist.map _)

/-- Of two nodes in the ranking one precedes the other, because their keys differ. -/
theorem Integrity.ranking_increasing (h : g.Integrity) (c : NodeKind) :
    (g.ranking c).Pairwise Precedes := by
  refine ((mergeSort_connectedLe_sorted _).and (List.pairwise_map.mp (h.ranking_keys_nodup c))).imp ?_
  intro a b hboth
  exact precedes_iff.mpr (lt_of_le_of_ne hboth.1 (mt key_eq_of_rankKey_eq hboth.2))

/-- The list has the first of the connected nodes of a kind with their degrees, as many as the limit
allows. -/
structure IsTop (g : PropertyGraph) (c : NodeKind) (limit : Nat) (top : List (Node × Nat)) : Prop where
  length_eq : top.length = min limit (g.connectedCount c)
  nodup : (top.map Prod.fst).Nodup
  of_kind : ∀ x ∈ top, x.1 ∈ g.nodes ∧ x.1.key.kind = c
  degree : ∀ x ∈ top, g.degree x.1.key = .ok x.2 ∧ 0 < x.2
  increasing : top.Pairwise Precedes
  /-- A node that is left out comes behind. -/
  behind : ∀ x ∈ top, ∀ n ∈ g.nodes, n.key.kind = c → n ∉ top.map Prod.fst →
    ∀ degree, g.degree n.key = .ok degree → 0 < degree → Precedes x (n, degree)

private theorem Integrity.isTop_take_ranking (h : g.Integrity) (c : NodeKind) (limit : Nat) :
    g.IsTop c limit ((g.ranking c).take limit) where
  length_eq := by rw [List.length_take, length_ranking]
  nodup := by
    have hkeys := (h.ranking_keys_nodup c).sublist ((List.take_sublist limit _).map _)
    have hmap : ((g.ranking c).take limit).map (·.1.key) =
        (((g.ranking c).take limit).map Prod.fst).map Node.key := (List.map_map ..).symm
    exact (hmap ▸ hkeys).of_map
  of_kind x hx := (h.mem_ranking_iff.mp (List.mem_of_mem_take hx)).1
  degree x hx := (h.mem_ranking_iff.mp (List.mem_of_mem_take hx)).2
  increasing := (h.ranking_increasing c).sublist (List.take_sublist limit _)
  behind x hx n hn hkind hout degree hdegree hpos := by
    have hmem : (n, degree) ∈ g.ranking c := h.mem_ranking_iff.mpr ⟨⟨hn, hkind⟩, hdegree, hpos⟩
    have hsplit := List.take_append_drop limit (g.ranking c)
    have hlater : (n, degree) ∈ (g.ranking c).drop limit := by
      rw [← hsplit, List.mem_append] at hmem
      exact hmem.resolve_left fun htake => hout (List.mem_map_of_mem htake)
    have hincreasing := h.ranking_increasing c
    rw [← hsplit] at hincreasing
    exact (List.pairwise_append.mp hincreasing).2.2 x hx _ hlater

private theorem Integrity.mostConnected_mono (h : g.Integrity) (c : NodeKind) {larger : Nat}
    (hle : limit ≤ larger) :
    g.mostConnected c limit <+: g.mostConnected c larger := by
  rw [h.mostConnected_eq, h.mostConnected_eq]
  exact List.take_prefix_take_left hle

end Graph.PropertyGraph

namespace Projection

open StructureGraph.Graph
open StructureGraph.Graph.PropertyGraph

variable {g : PropertyGraph} {s s' : ClassStructure} {name : Option String}

private theorem mem_classes_all : s ∈ (project g name .all).classes ↔
    ∃ n ∈ g.nodes, n.key.kind = .classNode ∧ classStructure g n.key = s := by
  rw [project, List.mem_map]
  simp only [selected, mem_nodesOfKind, and_assoc]

/-- Two classes of one name have one key, and so they are shown alike. -/
theorem eq_of_mem_classes_all (hs : s ∈ (project g name .all).classes)
    (hs' : s' ∈ (project g name .all).classes) (hname : s.name = s'.name) : s = s' := by
  obtain ⟨n, -, hkind, rfl⟩ := mem_classes_all.mp hs
  obtain ⟨n', -, hkind', rfl⟩ := mem_classes_all.mp hs'
  have hkey : n.key = n'.key := by
    obtain ⟨⟨kind, text⟩, properties⟩ := n
    obtain ⟨⟨kind', text'⟩, properties'⟩ := n'
    obtain rfl : kind = .classNode := hkind
    obtain rfl : kind' = .classNode := hkind'
    exact congrArg NodeKey.ofClass hname
  rw [hkey]

private theorem names_all (h : g.Integrity) :
    ((project g name .all).classes.map ClassStructure.name).Pairwise (· < ·) := by
  rw [project, List.map_map, List.pairwise_map]
  refine List.Pairwise.imp_of_mem ?_ (h.nodesOfKind_increasing .classNode)
  intro a b ha hb hlt
  have hkind : a.key.kind = b.key.kind := (mem_nodesOfKind.mp ha).2.trans (mem_nodesOfKind.mp hb).2.symm
  rcases hlt with hlt | ⟨-, hlt⟩
  · exact absurd hlt (by simp [hkind])
  · exact hlt

private theorem mem_names_all {text : String} :
    text ∈ (project g name .all).classes.map ClassStructure.name ↔ .ofClass text ∈ g.keys := by
  rw [mem_keys, List.mem_map]
  constructor
  · rintro ⟨s, hs, rfl⟩
    obtain ⟨n, hn, hkind, rfl⟩ := mem_classes_all.mp hs
    exact ⟨n, hn, by rw [classStructure, NodeKey.ofClass, ← hkind]⟩
  · rintro ⟨n, hn, hkey⟩
    exact ⟨_, mem_classes_all.mpr ⟨n, hn, by rw [hkey, NodeKey.ofClass], rfl⟩, by rw [hkey]; rfl⟩

/-- The nodes of a kind that have relationships are ranked by degree and key, and the first of them are
returned, fewer for a smaller limit. The most significant classes are shown in that order and as they are
shown among all classes, each of which is listed once and in the order of their names. -/
theorem most_connected_come_first {g : PropertyGraph} (hg : Reachable g) (name : Option String) :
    let all := (project g name .all).classes
    (∀ c limit, g.IsTop c limit (g.mostConnected c limit) ∧
      ∀ larger, limit ≤ larger → g.mostConnected c limit <+: g.mostConnected c larger) ∧
    (∀ limit,
      let most := (project g name (.mostSignificant limit)).classes
      most.map ClassStructure.name = (g.mostConnected .classNode limit).map (·.1.key.text) ∧
        ∀ s ∈ most, s ∈ all ∧ ∀ s' ∈ all, s'.name = s.name → s' = s) ∧
    (all.map ClassStructure.name).Pairwise (· < ·) ∧
    ∀ text, text ∈ all.map ClassStructure.name ↔ .ofClass text ∈ g.keys := by
  have h := hg.integrity
  refine ⟨fun c limit => ⟨?_, fun larger => h.mostConnected_mono c⟩, fun limit => ⟨?_, fun s hs => ?_⟩,
    names_all h, fun text => mem_names_all⟩
  · rw [h.mostConnected_eq]
    exact h.isTop_take_ranking c limit
  · rw [project, List.map_map, selected, List.map_map]
    rfl
  · obtain ⟨n, hn, rfl⟩ := List.mem_map.mp hs
    obtain ⟨x, hx, rfl⟩ := List.mem_map.mp hn
    rw [h.mostConnected_eq] at hx
    obtain ⟨hstored, hkind⟩ := (h.isTop_take_ranking .classNode limit).of_kind x hx
    have hshown : classStructure g x.1.key ∈ (project g name .all).classes :=
      mem_classes_all.mpr ⟨x.1, hstored, hkind, rfl⟩
    exact ⟨hshown, fun s' hs' hname => eq_of_mem_classes_all hs' hshown hname⟩

/-- Two classes of the same degree, and one without relationships. -/
def tiedClasses : PropertyGraph :=
  (PropertyGraph.empty.apply [.node ⟨.ofClass "B", .empty⟩, .node ⟨.ofClass "A", .empty⟩,
    .node ⟨.ofClass "C", .empty⟩, .relationship ⟨.ofClass "B", .inherits, .ofClass "A"⟩]).1

/-- The one with the lesser name comes first. -/
theorem most_connected_come_first_tie :
    Reachable tiedClasses ∧ tiedClasses.connectedCount .classNode = 2 ∧
      tiedClasses.IsTop .classNode 1 (tiedClasses.mostConnected .classNode 1) ∧
      (tiedClasses.mostConnected .classNode 1).map (fun x => (x.1.key.text, x.2)) = [("A", 1)] ∧
      ((project tiedClasses none .all).classes.map ClassStructure.name).Pairwise (· < ·) := by
  have hg : Reachable tiedClasses := reachable_empty.apply _
  obtain ⟨hmost, -, hnames, -⟩ := most_connected_come_first hg none
  have hconnected : (tiedClasses.nodes.filter fun n =>
      n.key.kind == .classNode && tiedClasses.isConnected n).map
        (fun n => (n, tiedClasses.neighborCount n.key)) =
      [(⟨.ofClass "B", .empty⟩, 1), (⟨.ofClass "A", .empty⟩, 1)] := by decide +kernel
  have hfirst : (tiedClasses.mostConnected .classNode 1).map (fun x => (x.1.key.text, x.2)) = [("A", 1)] := by
    rw [hg.integrity.mostConnected_eq, ranking, hconnected, mergeSort_pair]
    decide +kernel
  exact ⟨hg, by decide +kernel, (hmost .classNode 1).1, hfirst, hnames⟩

end Projection

end StructureGraph
