import StructureGraph.Graph.Snapshot
import StructureGraph.Proofs.Graph.Transaction
import StructureGraph.Proofs.Json.RoundTrip

namespace StructureGraph.Graph.Snapshot

open StructureGraph.Json (Value)

private theorem mapM_map {α β γ : Type} {f : β → Option γ} {g : α → β} {h : α → γ} :
    ∀ {l : List α}, (∀ a ∈ l, f (g a) = some (h a)) → (l.map g).mapM f = some (l.map h)
  | [], _ => rfl
  | a :: l, hf => by
    have hrest := mapM_map (f := f) (g := g) (h := h) fun b hb => hf b (List.mem_cons_of_mem a hb)
    simp [List.mapM_cons, hf a (by simp), hrest]

private theorem ofLabel?_label (k : NodeKind) : NodeKind.ofLabel? k.label = some k := by
  cases k <;> decide

private theorem relationOfLabel?_label (r : RelationKind) : RelationKind.ofLabel? r.label = some r := by
  cases r <;> decide

private theorem key?_keyJson (k : NodeKey) : key? (keyJson k) = some k := by
  simp [key?, keyJson, Value.record?, label?, ofLabel?_label, Value.string?]

private theorem properties?_propertiesJson (ps : Properties) :
    properties? (propertiesJson ps) = some ps := by
  have hentries : (ps.entries.map fun e => (e.1, Value.string e.2)).mapM property? =
      some ps.entries := by
    have hread := mapM_map (f := property?) (g := fun e => (e.1, Value.string e.2)) (h := id)
      (l := ps.entries) fun e _ => by simp [property?, Value.string?]
    simpa using hread
  simp [properties?, propertiesJson, hentries, Table.ofList_entries]

private theorem node?_nodeJson (n : Node) : node? (nodeJson n) = some n := by
  simp [node?, nodeJson, Value.record?, key?_keyJson, properties?_propertiesJson]

private theorem relationship?_relationshipJson (r : Relationship) :
    relationship? (relationshipJson r) = some r := by
  simp [relationship?, relationshipJson, Value.record?, label?, key?_keyJson, relationOfLabel?_label]

private theorem contents?_toJson (g : PropertyGraph) :
    contents? (toJson g) = some ⟨snapshotVersion, g.nodes, g.relationships⟩ := by
  have hnodes : (g.nodes.map nodeJson).mapM node? = some g.nodes := by
    simpa using mapM_map (h := id) fun n (_ : n ∈ g.nodes) => node?_nodeJson n
  have hrelationships : (g.relationships.map relationshipJson).mapM relationship? =
      some g.relationships := by
    simpa using mapM_map (h := id)
      fun r (_ : r ∈ g.relationships) => relationship?_relationshipJson r
  have hversion : version? (.ofNat snapshotVersion) = some snapshotVersion := by decide
  simp [contents?, toJson, Value.record?, Value.items?, hnodes, hrelationships, hversion]

private theorem isWhole_keyJson (k : NodeKey) : (keyJson k).IsWhole := ⟨trivial, trivial, trivial⟩

private theorem isWhole_nodeJson (n : Node) : (nodeJson n).IsWhole := by
  refine ⟨isWhole_keyJson n.key, (Json.fieldsWhole_iff _).mpr fun f hf => ?_, trivial⟩
  obtain ⟨e, -, rfl⟩ := List.mem_map.mp hf
  trivial

private theorem isWhole_relationshipJson (r : Relationship) : (relationshipJson r).IsWhole :=
  ⟨isWhole_keyJson r.source, trivial, isWhole_keyJson r.target, trivial⟩

private theorem isWhole_toJson (g : PropertyGraph) : (toJson g).IsWhole := by
  refine ⟨⟨snapshotVersion, rfl⟩, (Json.itemsWhole_iff _).mpr fun v hv => ?_,
    (Json.itemsWhole_iff _).mpr fun v hv => ?_, trivial⟩
  · obtain ⟨n, -, rfl⟩ := List.mem_map.mp hv
    exact isWhole_nodeJson n
  · obtain ⟨r, -, rfl⟩ := List.mem_map.mp hv
    exact isWhole_relationshipJson r

theorem ofText_toText (g : PropertyGraph) :
    ofText (toText g) = load ⟨snapshotVersion, g.nodes, g.relationships⟩ := by
  rw [ofText, toText, Json.read?_compact (isWhole_toJson g), Option.bind_some, contents?_toJson]

open PropertyGraph (Effect)

variable {g g' : PropertyGraph}

/-- What a snapshot file asks to be written. -/
def Contents.writes (c : Contents) : Transaction :=
  c.nodes.map .node ++ c.relationships.map .relationship

theorem execute_nodes (g : PropertyGraph) (ns : List Node) :
    ∃ s, g.execute (ns.map .node) = (ns.foldl PropertyGraph.mergeNode g, .ok s) := by
  induction ns generalizing g with
  | nil => exact ⟨.empty, rfl⟩
  | cons n ns ih =>
    obtain ⟨s, hs⟩ := ih (g.mergeNode n)
    exact ⟨_, PropertyGraph.execute_cons_eq_ok_iff.mpr ⟨_, _, s, rfl, hs, rfl⟩⟩

private theorem write_of_connect {r : Relationship} (h : connect g r = .ok g') :
    ∃ s, g.write (.relationship r) = (g', .ok s) := by
  unfold connect at h
  split at h
  · cases h
  · rename_i i hi
    split at h
    · cases h
    · rename_i j hj
      cases h
      have hedge : g.edge? r = some ⟨i, r.kind, j⟩ := by simp only [PropertyGraph.edge?, hi, hj]
      exact ⟨_, by simp only [PropertyGraph.write, hedge]; rfl⟩

private theorem execute_relationships {rs : List Relationship} (h : rs.foldlM connect g = .ok g') :
    ∃ s, g.execute (rs.map .relationship) = (g', .ok s) := by
  induction rs generalizing g with
  | nil =>
    cases h
    exact ⟨.empty, rfl⟩
  | cons r rs ih =>
    rw [List.foldlM_cons] at h
    cases hr : connect g r with
    | error e => simp [hr, bind, Except.bind] at h
    | ok g₁ =>
      obtain ⟨s₁, hw⟩ := write_of_connect hr
      obtain ⟨s₂, hs⟩ := ih (by simpa [hr, bind, Except.bind] using h)
      exact ⟨_, PropertyGraph.execute_cons_eq_ok_iff.mpr ⟨g₁, s₁, s₂, hw, hs, rfl⟩⟩

/-- Loading makes the writes that the file names, and nothing else. -/
theorem execute_writes_of_load {c : Contents} (h : load c = .ok g) :
    ∃ s, PropertyGraph.empty.execute c.writes = (g, .ok s) := by
  unfold load at h
  split at h
  · obtain ⟨s₁, h₁⟩ := execute_nodes .empty c.nodes
    obtain ⟨s₂, h₂⟩ := execute_relationships h
    exact PropertyGraph.execute_append h₁ h₂
  · cases h

theorem ofText_eq_ok_iff {text : String} :
    ofText text = .ok g ↔ ∃ c, (Json.read? text).bind contents? = some c ∧ load c = .ok g := by
  unfold ofText
  cases (Json.read? text).bind contents? <;> simp

private theorem load_effect {c : Contents} (h : load c = .ok g) : ∃ s, Effect .empty c.writes g s := by
  obtain ⟨s, hs⟩ := execute_writes_of_load h
  exact ⟨s, PropertyGraph.execute_effect PropertyGraph.integrity_empty hs⟩

theorem integrity_ofText {text : String} (h : ofText text = .ok g) : g.Integrity := by
  obtain ⟨c, -, hload⟩ := ofText_eq_ok_iff.mp h
  obtain ⟨s, heffect⟩ := load_effect hload
  exact heffect.integrity

/-- What an admissible graph writes is loaded as an admissible one. -/
theorem admissible_ofText_toText (hg : g.Admissible) (h : ofText (toText g) = .ok g') :
    g'.Admissible := by
  rw [ofText_toText] at h
  obtain ⟨s, hs⟩ := load_effect h
  refine hs.admissible PropertyGraph.admissible_empty fun w hw => ?_
  rcases List.mem_append.mp hw with hw | hw
  · obtain ⟨n, hn, rfl⟩ := List.mem_map.mp hw
    exact hg.keys_valid n.key (PropertyGraph.mem_keys.mpr ⟨n, hn, rfl⟩)
  · obtain ⟨r, hr, rfl⟩ := List.mem_map.mp hw
    exact hg.well_typed r hr

end StructureGraph.Graph.Snapshot
