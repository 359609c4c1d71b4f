import StructureGraph.Graph.Transaction
import StructureGraph.Proofs.Graph.Integrity

namespace StructureGraph.Graph

namespace Write

/-- The key of the node that a write merges. -/
def mergedKey? : Write → Option NodeKey
  | .node n => some n.key
  | .relationship _ => none

/-- The node with this key that a write merges. -/
def merging? (k : NodeKey) : Write → Option Node
  | .node n => if n.key = k then some n else none
  | .relationship _ => none

/-- The write is right in itself, whatever nodes are there. -/
def IsSound : Write → Prop
  | .node n => n.key.isValid
  | .relationship r => r.source.kind = r.kind.sourceKind ∧ r.target.kind = r.kind.targetKind

/-- The write is right where nodes with the `known` keys are there. -/
def Acceptable (known : NodeKey → Prop) : Write → Prop
  | .node n => n.key.isValid
  | .relationship r =>
    (r.source.kind = r.kind.sourceKind ∧ r.target.kind = r.kind.targetKind) ∧
      known r.source ∧ known r.target

theorem Acceptable.mono {known known' : NodeKey → Prop} {w : Write}
    (hk : ∀ k, known k → known' k) (hw : w.Acceptable known) : w.Acceptable known' := by
  cases w with
  | node n => exact hw
  | relationship r => exact ⟨hw.1, hk _ hw.2.1, hk _ hw.2.2⟩

theorem Acceptable.isSound {known : NodeKey → Prop} {w : Write} (hw : w.Acceptable known) :
    w.IsSound := by
  cases w with
  | node n => exact hw
  | relationship r => exact hw.1

/-- What is wrong with a write where nodes with the `known` keys are there. -/
inductive Offence (known : NodeKey → Prop) : Write → GraphError → Prop
  | invalidKey {n : Node} : ¬n.key.isValid → Offence known (.node n) (.invalidKey n.key)
  | invalidRelationship {r : Relationship} :
    ¬(r.source.kind = r.kind.sourceKind ∧ r.target.kind = r.kind.targetKind) →
      Offence known (.relationship r) (.invalidRelationship r)
  | missingSource {r : Relationship} :
    r.source.kind = r.kind.sourceKind → r.target.kind = r.kind.targetKind →
      ¬known r.source → Offence known (.relationship r) (.missingEndpoint r.source)
  | missingTarget {r : Relationship} :
    r.source.kind = r.kind.sourceKind → r.target.kind = r.kind.targetKind →
      known r.source → ¬known r.target →
      Offence known (.relationship r) (.missingEndpoint r.target)

private theorem Offence.not_acceptable {known : NodeKey → Prop} {w : Write} {e : GraphError}
    (h : w.Offence known e) : ¬w.Acceptable known := by
  cases h with
  | invalidKey hk => exact hk
  | invalidRelationship hr => exact fun ha => hr ha.1
  | missingSource _ _ hs => exact fun ha => hs ha.2.1
  | missingTarget _ _ _ ht => exact fun ha => ht ha.2.2

end Write

/-- The keys of the nodes that writes merge. -/
def mergedKeys (tx : Transaction) : List NodeKey := tx.filterMap Write.mergedKey?

/-- The first node with this key that writes merge. -/
def firstMerged? (k : NodeKey) (tx : Transaction) : Option Node := tx.findSome? (Write.merging? k)

/-- Each write is right after those before it, if nodes with the `known` keys were there at first. -/
def Accepts (known : NodeKey → Prop) (tx : Transaction) : Prop :=
  ∀ i (w : Write), tx[i]? = some w → w.Acceptable fun k => known k ∨ k ∈ mergedKeys (tx.take i)

/-- The first write that is not right after those before it has this error. -/
def Refuses (known : NodeKey → Prop) (tx : Transaction) (e : GraphError) : Prop :=
  ∃ i, ∃ w : Write, tx[i]? = some w ∧ w.Offence (fun k => known k ∨ k ∈ mergedKeys (tx.take i)) e ∧
    ∀ j < i, ∀ v : Write, tx[j]? = some v →
      v.Acceptable fun k => known k ∨ k ∈ mergedKeys (tx.take j)

section Lists

variable {known : NodeKey → Prop} {w : Write} {ws : Transaction} {e : GraphError} {k : NodeKey}

theorem mem_mergedKeys : k ∈ mergedKeys ws ↔ ∃ n, .node n ∈ ws ∧ n.key = k := by
  rw [mergedKeys, List.mem_filterMap]
  constructor
  · intro hexists
    obtain ⟨w, hw, hk⟩ := hexists
    cases w with
    | node n => exact ⟨n, hw, Option.some.inj hk⟩
    | relationship r => cases hk
  · intro hexists
    obtain ⟨n, hn, rfl⟩ := hexists
    exact ⟨.node n, hn, rfl⟩

/-- What is known after a write, one write later in the list. -/
private theorem known_cons (i : Nat) :
    (fun k => known k ∨ k ∈ mergedKeys ((w :: ws).take (i + 1))) =
      fun k => (known k ∨ w.mergedKey? = some k) ∨ k ∈ mergedKeys (ws.take i) := by
  funext k
  cases hw : w.mergedKey? <;>
    simp [mergedKeys, hw, or_assoc, eq_comm]

private theorem known_nil : (fun k => known k ∨ k ∈ mergedKeys (ws.take 0)) = known := by
  funext k
  simp [mergedKeys]

@[simp] theorem mergedKeys_nil : mergedKeys [] = [] := rfl

theorem mergedKeys_append (ws vs : Transaction) :
    mergedKeys (ws ++ vs) = mergedKeys ws ++ mergedKeys vs := List.filterMap_append

theorem firstMerged?_append (k : NodeKey) (ws vs : Transaction) :
    firstMerged? k (ws ++ vs) = (firstMerged? k ws).or (firstMerged? k vs) := List.findSome?_append

theorem mem_mergedKeys_cons :
    k ∈ mergedKeys (w :: ws) ↔ w.mergedKey? = some k ∨ k ∈ mergedKeys ws := by
  cases hw : w.mergedKey? <;> simp [mergedKeys, hw, eq_comm]

theorem accepts_nil : Accepts known [] := fun i w hw => by simp at hw

theorem accepts_cons : Accepts known (w :: ws) ↔
    w.Acceptable known ∧ Accepts (fun k => known k ∨ w.mergedKey? = some k) ws := by
  constructor
  · intro h
    refine ⟨?_, fun i v hv => ?_⟩
    · have h0 := h 0 w rfl
      rwa [known_nil] at h0
    · have hi := h (i + 1) v hv
      rwa [known_cons] at hi
  · intro hboth i v hv
    obtain ⟨hw, hws⟩ := hboth
    cases i with
    | zero =>
      cases hv
      rwa [known_nil]
    | succ i =>
      rw [known_cons]
      exact hws i v hv

theorem Accepts.isSound (h : Accepts known ws) : ∀ w ∈ ws, w.IsSound := by
  intro w hw
  obtain ⟨i, hi⟩ := List.mem_iff_getElem?.mp hw
  exact (h i w hi).isSound

theorem not_refuses_nil : ¬Refuses known [] e := by
  intro hexists
  obtain ⟨i, w, hw, -⟩ := hexists
  simp at hw

theorem refuses_cons : Refuses known (w :: ws) e ↔
    w.Offence known e ∨
      w.Acceptable known ∧ Refuses (fun k => known k ∨ w.mergedKey? = some k) ws e := by
  constructor
  · intro hexists
    obtain ⟨i, v, hv, he, hbefore⟩ := hexists
    cases i with
    | zero =>
      cases hv
      rw [known_nil] at he
      exact .inl he
    | succ i =>
      rw [known_cons] at he
      refine .inr ⟨?_, i, v, hv, he, fun j hj u hu => ?_⟩
      · have h0 := hbefore 0 (by omega) w rfl
        rwa [known_nil] at h0
      · have hj := hbefore (j + 1) (by omega) u hu
        rwa [known_cons] at hj
  · intro heither
    rcases heither with he | ⟨hw, i, v, hv, he, hbefore⟩
    · exact ⟨0, w, rfl, by rwa [known_nil], by simp⟩
    · refine ⟨i + 1, v, hv, by rwa [known_cons], fun j hj u hu => ?_⟩
      cases j with
      | zero =>
        cases hu
        rwa [known_nil]
      | succ j =>
        rw [known_cons]
        exact hbefore j (by omega) u hu

end Lists

theorem Relationship.isWellTyped_iff (r : Relationship) : r.isWellTyped ↔
    r.source.kind = r.kind.sourceKind ∧ r.target.kind = r.kind.targetKind := by
  simp [isWellTyped]

namespace PropertyGraph

variable {g g' : PropertyGraph} {pending : List NodeKey} {tx : Transaction} {w : Write}
  {s : WriteSummary} {e : GraphError} {k : NodeKey}

private theorem firstMissing_eq_some_iff (h : g.Integrity) (a b : NodeKey) :
    g.firstMissing pending a b = some k ↔
      ¬(a ∈ g.keys ∨ a ∈ pending) ∧ k = a ∨
        (a ∈ g.keys ∨ a ∈ pending) ∧ ¬(b ∈ g.keys ∨ b ∈ pending) ∧ k = b := by
  have hmissing (c : NodeKey) :
      (!(pending.contains c || g.hasNode c)) = !decide (c ∈ g.keys ∨ c ∈ pending) := by
    simp [← h.hasNode_iff, or_comm]
  simp only [firstMissing, hmissing, List.find?_cons, List.find?_nil]
  by_cases ha : a ∈ g.keys ∨ a ∈ pending <;> by_cases hb : b ∈ g.keys ∨ b ∈ pending <;>
    simp [ha, hb, eq_comm]

/-- What is known to the check while `pending` nodes wait. -/
private theorem known_pending (w : Write) :
    (fun k => (k ∈ g.keys ∨ k ∈ pending) ∨ w.mergedKey? = some k) =
      fun k => k ∈ g.keys ∨ k ∈ w.mergedKey?.toList ++ pending := by
  funext k
  simp only [List.mem_append, Option.mem_toList, eq_iff_iff]
  tauto

private theorem check_cons_of_acceptable (h : g.Integrity)
    (hw : w.Acceptable fun k => k ∈ g.keys ∨ k ∈ pending) (ws : Transaction) :
    g.check pending (w :: ws) = g.check (w.mergedKey?.toList ++ pending) ws := by
  cases w with
  | node n =>
    have hw : n.key.isValid = true := hw
    simp [check, hw, Write.mergedKey?]
  | relationship r =>
    obtain ⟨hkinds, hs, ht⟩ := hw
    have hnone : g.firstMissing pending r.source r.target = none := by
      rw [Option.eq_none_iff_forall_ne_some]
      intro k hk
      rcases (firstMissing_eq_some_iff h _ _).mp hk with ⟨hn, -⟩ | ⟨-, hn, -⟩
      · exact hn hs
      · exact hn ht
    simp [check, r.isWellTyped_iff.mpr hkinds, hnone, Write.mergedKey?]

private theorem check_cons_of_offence (h : g.Integrity)
    (hw : w.Offence (fun k => k ∈ g.keys ∨ k ∈ pending) e) (ws : Transaction) :
    g.check pending (w :: ws) = .error e := by
  cases hw with
  | invalidKey hk => simp [check, hk]
  | invalidRelationship hr =>
    rename_i r
    have hr : r.isWellTyped = false := by rwa [← Bool.not_eq_true, r.isWellTyped_iff]
    simp [check, hr]
  | missingSource hs ht hmissing =>
    rename_i r
    have hfirst := (firstMissing_eq_some_iff (k := r.source) h r.source r.target).mpr
      (.inl ⟨hmissing, rfl⟩)
    simp [check, r.isWellTyped_iff.mpr ⟨hs, ht⟩, hfirst]
  | missingTarget hs ht hknown hmissing =>
    rename_i r
    have hfirst := (firstMissing_eq_some_iff (k := r.target) h r.source r.target).mpr
      (.inr ⟨hknown, hmissing, rfl⟩)
    simp [check, r.isWellTyped_iff.mpr ⟨hs, ht⟩, hfirst]

private theorem acceptable_or_offence (known : NodeKey → Prop) (w : Write) :
    w.Acceptable known ∨ ∃ e, w.Offence known e := by
  cases w with
  | node n =>
    by_cases hk : n.key.isValid
    · exact .inl hk
    · exact .inr ⟨_, .invalidKey hk⟩
  | relationship r =>
    by_cases hr : r.source.kind = r.kind.sourceKind ∧ r.target.kind = r.kind.targetKind
    · by_cases hs : known r.source
      · by_cases ht : known r.target
        · exact .inl ⟨hr, hs, ht⟩
        · exact .inr ⟨_, .missingTarget hr.1 hr.2 hs ht⟩
      · exact .inr ⟨_, .missingSource hr.1 hr.2 hs⟩
    · exact .inr ⟨_, .invalidRelationship hr⟩

/-- The outcome of the check, by induction on the writes with the nodes that wait. -/
theorem check_spec (h : g.Integrity) (tx : Transaction) (pending : List NodeKey) :
    (g.check pending tx = .ok () ↔ Accepts (fun k => k ∈ g.keys ∨ k ∈ pending) tx) ∧
      ∀ e, g.check pending tx = .error e ↔ Refuses (fun k => k ∈ g.keys ∨ k ∈ pending) tx e := by
  induction tx generalizing pending with
  | nil =>
    refine ⟨iff_of_true rfl accepts_nil, fun e => iff_of_false ?_ not_refuses_nil⟩
    simp [check]
  | cons w ws ih =>
    simp only [accepts_cons, refuses_cons, known_pending]
    rcases acceptable_or_offence (fun k => k ∈ g.keys ∨ k ∈ pending) w with hw | ⟨d, hd⟩
    · have hno (e) : ¬w.Offence (fun k => k ∈ g.keys ∨ k ∈ pending) e :=
        fun he => he.not_acceptable hw
      simpa only [check_cons_of_acceptable h hw, hw, hno, true_and, false_or] using
        ih (w.mergedKey?.toList ++ pending)
    · rw [check_cons_of_offence h hd]
      simp only [hd.not_acceptable, false_and, or_false, reduceCtorEq, Except.error.injEq,
        true_and]
      refine fun e => ⟨fun heq => heq ▸ hd, fun he => ?_⟩
      have hsame := (check_cons_of_offence h hd []).symm.trans (check_cons_of_offence h he [])
      exact Except.error.inj hsame

/-- What successful writes make of a graph, and what their summary says. -/
structure Effect (g : PropertyGraph) (tx : Transaction) (g' : PropertyGraph) (s : WriteSummary) :
    Prop where
  integrity : g'.Integrity
  mem_keys : ∀ k, k ∈ g'.keys ↔ k ∈ g.keys ∨ k ∈ mergedKeys tx
  /-- Nodes stay as they were made, and new ones are made by the first write of their key. -/
  node? : ∀ k, g'.node? k = (g.node? k).or (firstMerged? k tx)
  mem_relationships : ∀ r, r ∈ g'.relationships ↔ r ∈ g.relationships ∨ .relationship r ∈ tx
  nodes_created : g'.nodes.length = g.nodes.length + s.nodesCreated
  edges_created : g'.edges.length = g.edges.length + s.relationshipsCreated

theorem Effect.refl (h : g.Integrity) : Effect g [] g .empty where
  integrity := h
  mem_keys k := by simp
  node? k := by simp [firstMerged?]
  mem_relationships r := by simp
  nodes_created := rfl
  edges_created := rfl

theorem Effect.append {g₁ g₂ : PropertyGraph} {s₁ s₂ : WriteSummary} {tx₁ tx₂ : Transaction}
    (h₁ : Effect g tx₁ g₁ s₁) (h₂ : Effect g₁ tx₂ g₂ s₂) :
    Effect g (tx₁ ++ tx₂) g₂ (s₁.add s₂) where
  integrity := h₂.integrity
  mem_keys k := by
    rw [h₂.mem_keys, h₁.mem_keys, mergedKeys_append, List.mem_append, or_assoc]
  node? k := by rw [h₂.node?, h₁.node?, Option.or_assoc, firstMerged?_append]
  mem_relationships r := by
    rw [h₂.mem_relationships, h₁.mem_relationships, List.mem_append, or_assoc]
  nodes_created := by
    rw [h₂.nodes_created, h₁.nodes_created, WriteSummary.add, Nat.add_assoc]
  edges_created := by
    rw [h₂.edges_created, h₁.edges_created, WriteSummary.add, Nat.add_assoc]

theorem Effect.admissible (h : Effect g tx g' s) (hg : g.Admissible) (htx : ∀ w ∈ tx, w.IsSound) :
    g'.Admissible where
  keys_valid k hk := by
    rcases (h.mem_keys k).mp hk with hk | hk
    · exact hg.keys_valid k hk
    · obtain ⟨n, hn, rfl⟩ := mem_mergedKeys.mp hk
      exact htx _ hn
  well_typed r hr := by
    rcases (h.mem_relationships r).mp hr with hr | hr
    · exact hg.well_typed r hr
    · exact htx _ hr

private theorem write_node_effect (h : g.Integrity) (n : Node) :
    Effect g [.node n] (g.mergeNode n) ⟨if g.hasNode n.key then 0 else 1, 0⟩ where
  integrity := h.mergeNode n
  mem_keys k := by
    rw [mem_keys_mergeNode h, mem_mergedKeys_cons]
    simp [Write.mergedKey?, eq_comm]
  node? k := by
    rw [node?_mergeNode h]
    by_cases hk : n.key = k <;> simp [firstMerged?, Write.merging?, hk]
  mem_relationships r := by simp [relationships_mergeNode h]
  nodes_created := length_nodes_mergeNode g n
  edges_created := by simp

private theorem write_edge_effect (h : g.Integrity) {r : Relationship} {d : Edge}
    (hd : g.edge? r = some d) :
    Effect g [.relationship r] (g.mergeEdge d) ⟨0, if g.edges.contains d then 0 else 1⟩ where
  integrity := h.mergeEdge (h.ends_of_edge? hd)
  mem_keys k := by
    rw [keys_mergeEdge, mem_mergedKeys_cons]
    simp [Write.mergedKey?]
  node? k := by simp [firstMerged?, Write.merging?]
  mem_relationships r' := by
    rw [mem_relationships_mergeEdge h hd]
    simp [eq_comm]
  nodes_created := by simp
  edges_created := length_edges_mergeEdge g d

theorem write_effect (h : g.Integrity) (hw : g.write w = (g', .ok s)) : Effect g [w] g' s := by
  cases w with
  | node n =>
    cases hw
    exact write_node_effect h n
  | relationship r =>
    cases hd : g.edge? r with
    | none => simp [write, hd] at hw
    | some d =>
      simp only [write, hd, Prod.mk.injEq, Except.ok.injEq] at hw
      obtain ⟨rfl, rfl⟩ := hw
      exact write_edge_effect h hd

theorem execute_cons_eq_ok_iff : g.execute (w :: tx) = (g', .ok s) ↔
    ∃ g₁ s₁ s₂, g.write w = (g₁, .ok s₁) ∧ g₁.execute tx = (g', .ok s₂) ∧ s₁.add s₂ = s := by
  rw [execute]
  split
  · rename_i g₁ e hw
    simp [hw]
  · rename_i g₁ s₁ hw
    cases htx : g₁.execute tx with
    | mk g₂ result =>
      cases result with
      | error e => simp [hw, htx, Except.map]
      | ok s₂ =>
        simp only [hw, Except.map, Prod.mk.injEq, Except.ok.injEq]
        constructor
        · intro hboth
          obtain ⟨rfl, rfl⟩ := hboth
          exact ⟨g₁, s₁, s₂, ⟨rfl, rfl⟩, by rw [htx], rfl⟩
        · intro hexists
          obtain ⟨_, _, _, ⟨rfl, rfl⟩, hrest, rfl⟩ := hexists
          cases htx.symm.trans hrest
          exact ⟨rfl, rfl⟩

theorem execute_append {g₁ g₂ : PropertyGraph} {s₁ s₂ : WriteSummary} {tx₁ tx₂ : Transaction}
    (h₁ : g.execute tx₁ = (g₁, .ok s₁)) (h₂ : g₁.execute tx₂ = (g₂, .ok s₂)) :
    ∃ s, g.execute (tx₁ ++ tx₂) = (g₂, .ok s) := by
  induction tx₁ generalizing g s₁ with
  | nil =>
    cases h₁
    exact ⟨s₂, h₂⟩
  | cons w ws ih =>
    obtain ⟨g₀, t₁, t₂, hw, hws, -⟩ := execute_cons_eq_ok_iff.mp h₁
    obtain ⟨t, ht⟩ := ih hws
    exact ⟨_, execute_cons_eq_ok_iff.mpr ⟨g₀, t₁, t, hw, ht, rfl⟩⟩

theorem execute_effect (h : g.Integrity) (hx : g.execute tx = (g', .ok s)) : Effect g tx g' s := by
  induction tx generalizing g g' s with
  | nil =>
    cases hx
    exact .refl h
  | cons w ws ih =>
    obtain ⟨g₁, s₁, s₂, hw, hws, rfl⟩ := execute_cons_eq_ok_iff.mp hx
    have h₁ := write_effect h hw
    exact h₁.append (ih h₁.integrity hws)

theorem Integrity.write (h : g.Integrity) (w : Write) : (g.write w).1.Integrity := by
  cases hw : g.write w with
  | mk g' result =>
    cases result with
    | ok s => exact (write_effect h hw).integrity
    | error e =>
      cases w with
      | node n => cases hw
      | relationship r =>
        cases hd : g.edge? r with
        | none =>
          simp only [PropertyGraph.write, hd, Prod.mk.injEq] at hw
          exact hw.1 ▸ h
        | some d => simp [PropertyGraph.write, hd] at hw

/-- What every write keeps is kept, also where a write fails. -/
theorem execute_keeps {P : PropertyGraph → Prop} (hwrite : ∀ g w, P g → P (g.write w).1) (hg : P g)
    (tx : Transaction) : P (g.execute tx).1 := by
  induction tx generalizing g with
  | nil => exact hg
  | cons w ws ih =>
    have hw := hwrite g w hg
    rw [PropertyGraph.execute]
    split
    · rename_i g₁ e h₁
      rwa [h₁] at hw
    · rename_i g₁ s₁ h₁
      rw [h₁] at hw
      exact ih hw

theorem Integrity.execute (h : g.Integrity) (tx : Transaction) : (g.execute tx).1.Integrity :=
  execute_keeps (P := Integrity) (fun _ w hg => hg.write w) h tx

theorem Integrity.apply (h : g.Integrity) (tx : Transaction) : (g.apply tx).1.Integrity := by
  unfold PropertyGraph.apply
  split
  · exact h
  · exact h.execute tx

private theorem write_succeeds (h : g.Integrity) (hw : w.Acceptable (· ∈ g.keys)) :
    ∃ g' s, g.write w = (g', .ok s) := by
  cases w with
  | node n => exact ⟨_, _, rfl⟩
  | relationship r =>
    obtain ⟨d, hd⟩ := Option.isSome_iff_exists.mp (h.edge?_isSome_iff.mpr hw.2)
    exact ⟨_, _, by simp only [write, hd]; rfl⟩

/-- Writes that are each right after those before succeed. The induction lets the keys that the
check knows be among those of the graph that the writes have come to. -/
theorem execute_succeeds {known : NodeKey → Prop} (h : g.Integrity) (hk : ∀ k, known k → k ∈ g.keys)
    (htx : Accepts known tx) : ∃ s, (g.execute tx).2 = .ok s := by
  induction tx generalizing g known with
  | nil => exact ⟨_, rfl⟩
  | cons w ws ih =>
    obtain ⟨hw, hws⟩ := accepts_cons.mp htx
    obtain ⟨g₁, s₁, hg₁⟩ := write_succeeds h (hw.mono hk)
    have h₁ := write_effect h hg₁
    obtain ⟨s₂, hs₂⟩ := ih h₁.integrity (fun k hkw => (h₁.mem_keys k).mpr (by
      rw [mem_mergedKeys_cons]
      exact hkw.imp (hk k) .inl)) hws
    exact ⟨s₁.add s₂, by simp [execute, hg₁, hs₂, Except.map]⟩

theorem check_eq_ok_iff (h : g.Integrity) (tx : Transaction) :
    g.check [] tx = .ok () ↔ Accepts (· ∈ g.keys) tx := by
  simpa using (check_spec h tx []).1

private theorem check_eq_error_iff (h : g.Integrity) (tx : Transaction) (e : GraphError) :
    g.check [] tx = .error e ↔ Refuses (· ∈ g.keys) tx e := by
  simpa using (check_spec h tx []).2 e

theorem execute_of_check (h : g.Integrity) (htx : g.check [] tx = .ok ()) :
    ∃ s, (g.execute tx).2 = .ok s :=
  execute_succeeds h (fun _ hk => hk) ((check_eq_ok_iff h tx).mp htx)

theorem apply_eq_error_iff (h : g.Integrity) (tx : Transaction) (e : GraphError) :
    (g.apply tx).2 = .error e ↔ Refuses (· ∈ g.keys) tx e := by
  rw [← check_eq_error_iff h]
  unfold PropertyGraph.apply
  cases htx : g.check [] tx with
  | error d => simp
  | ok _ =>
    obtain ⟨s, hs⟩ := execute_of_check h htx
    simp [hs]

theorem apply_eq_ok_iff (h : g.Integrity) (tx : Transaction) :
    (∃ s, (g.apply tx).2 = .ok s) ↔ Accepts (· ∈ g.keys) tx := by
  rw [← check_eq_ok_iff h]
  unfold PropertyGraph.apply
  cases htx : g.check [] tx with
  | error d => simp
  | ok _ => simpa using execute_of_check h htx

theorem apply_of_error (h : g.Integrity) (he : (g.apply tx).2 = .error e) : (g.apply tx).1 = g := by
  have hc := (check_eq_error_iff h tx e).mpr ((apply_eq_error_iff h tx e).mp he)
  simp [PropertyGraph.apply, hc]

theorem apply_effect (h : g.Integrity) (hx : g.apply tx = (g', .ok s)) : Effect g tx g' s := by
  unfold PropertyGraph.apply at hx
  split at hx
  · cases hx
  · exact execute_effect h hx

theorem Admissible.apply (h : g.Integrity) (hg : g.Admissible) (tx : Transaction) :
    (g.apply tx).1.Admissible := by
  cases hx : g.apply tx with
  | mk g' result =>
    cases result with
    | error e =>
      have herror : (g.apply tx).2 = .error e := by rw [hx]
      have hsame := apply_of_error h herror
      rw [hx] at hsame
      exact hsame ▸ hg
    | ok s =>
      have hacc := (apply_eq_ok_iff h tx).mp ⟨s, by rw [hx]⟩
      exact (apply_effect h hx).admissible hg hacc.isSound

end PropertyGraph

end StructureGraph.Graph
