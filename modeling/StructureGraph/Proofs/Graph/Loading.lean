import StructureGraph.Proofs.Graph.Growth
import StructureGraph.Proofs.Graph.Session

namespace StructureGraph.Graph

open PropertyGraph

variable {g g' : PropertyGraph} {tx : Transaction} {s : WriteSummary}

private theorem write_acceptable_of_isSound {w : Write} (h : g.Integrity) (hx : g.write w = (g', .ok s))
    (hw : w.IsSound) : w.Acceptable (· ∈ g.keys) := by
  cases w with
  | node n => exact hw
  | relationship r =>
    cases hedge : g.edge? r with
    | none => simp [write, hedge] at hx
    | some e =>
      have hsome : (g.edge? r).isSome := by rw [hedge]; rfl
      exact ⟨hw, h.edge?_isSome_iff.mp hsome⟩

/-- Sound writes that could be made one by one would have passed the check. -/
theorem accepts_of_execute (h : g.Integrity) (hx : g.execute tx = (g', .ok s))
    (hsound : ∀ w ∈ tx, w.IsSound) : Accepts (· ∈ g.keys) tx := by
  induction tx generalizing g s with
  | nil => exact accepts_nil
  | cons w ws ih =>
    obtain ⟨hw, hws⟩ := List.forall_mem_cons.mp hsound
    obtain ⟨g₁, s₁, s₂, hfirst, hrest, -⟩ := execute_cons_eq_ok_iff.mp hx
    have heffect := write_effect h hfirst
    have hlater : Accepts (· ∈ g₁.keys) ws := ih heffect.integrity hrest hws
    refine accepts_cons.mpr ⟨write_acceptable_of_isSound h hfirst hw, hlater.mono fun k hk => ?_⟩
    simpa [mem_mergedKeys_cons] using (heffect.mem_keys k).mp hk

private theorem apply_of_execute (h : g.Integrity) (hx : g.execute tx = (g', .ok s))
    (hsound : ∀ w ∈ tx, w.IsSound) : g.apply tx = (g', .ok s) := by
  unfold apply
  rw [(check_eq_ok_iff h tx).mpr (accepts_of_execute h hx hsound)]
  exact hx

/-- An admissible graph was made by sound writes only. -/
theorem PropertyGraph.Effect.isSound_of_admissible (h : Effect g tx g' s) (hg' : g'.Admissible) :
    ∀ w ∈ tx, w.IsSound := by
  intro w hw
  have hmade := h.isMade hw
  cases w with
  | node n => exact hg'.keys_valid n.key hmade
  | relationship r => exact hg'.well_typed r hmade

private theorem Snapshot.Contents.writes_isSound_iff (c : Snapshot.Contents) :
    (∀ w ∈ c.writes, w.IsSound) ↔
      (∀ n ∈ c.nodes, n.key.isValid) ∧ ∀ r ∈ c.relationships, r.isWellTyped := by
  simp only [Contents.writes, List.forall_mem_append, List.forall_mem_map, Write.IsSound,
    Relationship.isWellTyped_iff]

/-- Transactions one after the other, of which some may be refused. -/
def PropertyGraph.applyAll (g : PropertyGraph) (txs : List Transaction) : PropertyGraph :=
  txs.foldl (fun g tx => (g.apply tx).1) g

private theorem admissible_applyAll {txs : List Transaction} (h : g.Integrity) (hg : g.Admissible) :
    (g.applyAll txs).Admissible := by
  induction txs generalizing g with
  | nil => exact hg
  | cons tx txs ih => exact ih (h.apply tx) (Admissible.apply h hg tx)

/-- A snapshot file that can be opened gives a graph with valid keys and well-typed relationships just
in case the file names no others, and just in case transactions on an empty store can make that
graph. -/
theorem opened_graph_admissible_iff {files : Files} {path text : String} {s : StoredGraph}
    (htext : files.text? path = some text) (hopen : StoredGraph.ofFile files path = .ok s) :
    ∃ c, (Json.read? text).bind Snapshot.contents? = some c ∧
      (s.graph.Admissible ↔
        (∀ n ∈ c.nodes, n.key.isValid) ∧ ∀ r ∈ c.relationships, r.isWellTyped) ∧
      (s.graph.Admissible ↔ ∃ txs, PropertyGraph.empty.applyAll txs = s.graph) := by
  obtain ⟨g, hg, rfl⟩ := StoredGraph.ofFile_eq_ok_iff.mp hopen
  rw [StoredGraph.load_of_text? htext] at hg
  obtain ⟨c, hc, hload⟩ := Snapshot.ofText_eq_ok_iff.mp hg
  obtain ⟨s, hexecute⟩ := Snapshot.execute_writes_of_load hload
  have heffect := execute_effect integrity_empty hexecute
  have hsound : g.Admissible ↔ ∀ w ∈ c.writes, w.IsSound :=
    ⟨heffect.isSound_of_admissible, heffect.admissible admissible_empty⟩
  refine ⟨c, hc, hsound.trans c.writes_isSound_iff, fun hadmissible => ?_, fun hmade => ?_⟩
  · have happly := apply_of_execute integrity_empty hexecute (hsound.mp hadmissible)
    exact ⟨[c.writes], by simp only [applyAll, List.foldl_cons, List.foldl_nil, happly]⟩
  · obtain ⟨txs, rfl⟩ := hmade
    exact admissible_applyAll integrity_empty admissible_empty

theorem opened_graph_admissible_iff_sound :
    let text := "[1,[[[\"Class\",\"A\"]]],[[[\"Class\",\"A\"],\"EXTENDS\",[\"Class\",\"A\"]]]]"
    let files := ((Files.empty ["home"]).writeText "graph.json" text).1
    let s : StoredGraph :=
      ⟨⟨[⟨.ofClass "A", .empty⟩], [⟨0, .inherits, 0⟩], ⟨[(.ofClass "A", 0)]⟩⟩, some "graph.json"⟩
    (files.text? "graph.json" = some text ∧ StoredGraph.ofFile files "graph.json" = .ok s) ∧
      ∃ c, (Json.read? text).bind Snapshot.contents? = some c ∧
        (s.graph.Admissible ↔
          (∀ n ∈ c.nodes, n.key.isValid) ∧ ∀ r ∈ c.relationships, r.isWellTyped) ∧
        (s.graph.Admissible ↔ ∃ txs, PropertyGraph.empty.applyAll txs = s.graph) := by
  intro text files s
  have hwritten : (Files.empty ["home"]).writeText "graph.json" text = (files, true) :=
    Prod.ext rfl (by decide +kernel)
  have htext : files.text? "graph.json" = some text := text?_of_writeText hwritten
  have hopen : StoredGraph.ofFile files "graph.json" = .ok s :=
    StoredGraph.ofFile_of_text? htext (by decide +kernel)
  exact ⟨⟨htext, hopen⟩, opened_graph_admissible_iff htext hopen⟩

/-- A file that can be opened although it names a class without a name, and a method that inherits from
it. Transactions refuse both. -/
theorem opened_graph_not_admissible :
    let text := "[1,[[[\"Class\",\" \"]],[[\"Method\",\"m\"]]]," ++
      "[[[\"Method\",\"m\"],\"EXTENDS\",[\"Class\",\" \"]]]]"
    let files := ((Files.empty ["home"]).writeText "graph.json" text).1
    let s : StoredGraph :=
      ⟨⟨[⟨.ofClass " ", .empty⟩, ⟨.ofMethod "m", .empty⟩], [⟨1, .inherits, 0⟩],
        ⟨[(.ofMethod "m", 1), (.ofClass " ", 0)]⟩⟩, some "graph.json"⟩
    StoredGraph.ofFile files "graph.json" = .ok s ∧
      (∃ k ∈ s.graph.keys, ¬k.isValid) ∧ (∃ r ∈ s.graph.relationships, ¬r.isWellTyped) ∧
        ∀ txs, PropertyGraph.empty.applyAll txs ≠ s.graph := by
  intro text files s
  have hwritten : (Files.empty ["home"]).writeText "graph.json" text = (files, true) :=
    Prod.ext rfl (by decide +kernel)
  have hopen : StoredGraph.ofFile files "graph.json" = .ok s :=
    StoredGraph.ofFile_of_text? (text?_of_writeText hwritten) (by decide +kernel)
  have hkey : ∃ k ∈ s.graph.keys, ¬k.isValid := by decide +kernel
  have hrelationship : ∃ r ∈ s.graph.relationships, ¬r.isWellTyped := by decide +kernel
  refine ⟨hopen, hkey, hrelationship, ?_⟩
  intro txs hmade
  obtain ⟨k, hk, hinvalid⟩ := hkey
  have hadmissible : s.graph.Admissible :=
    hmade ▸ admissible_applyAll integrity_empty admissible_empty
  exact hinvalid (hadmissible.keys_valid k hk)

end StructureGraph.Graph
