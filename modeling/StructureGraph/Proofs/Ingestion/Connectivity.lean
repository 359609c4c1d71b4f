import StructureGraph.Proofs.Ingestion

namespace StructureGraph

open StructureGraph.Graph

namespace Graph

/-- The first end of a relationship that is not among the known keys. -/
def Relationship.danglingEnd? (known : List NodeKey) (r : Relationship) : Option NodeKey :=
  if r.source ∉ known then some r.source else if r.target ∉ known then some r.target else none

private theorem Relationship.danglingEnd?_congr {known known' : List NodeKey}
    (h : ∀ k, k ∈ known ↔ k ∈ known') : danglingEnd? known = danglingEnd? known' := by
  funext r
  simp only [danglingEnd?, h]

namespace Snapshot

open PropertyGraph

/-- The first end of the relationships that is no node of the snapshot. -/
def Contents.danglingEnd? (c : Contents) : Option NodeKey :=
  c.relationships.findSome? (Relationship.danglingEnd? (c.nodes.map Node.key))

variable {g g' : PropertyGraph} {r : Relationship} {rs : List Relationship} {e : GraphError}
  {k : NodeKey}

private theorem indexOf?_of_not_mem (h : g.Integrity) (hk : k ∉ g.keys) : g.indexOf? k = none := by
  rwa [← Option.not_isSome_iff_eq_none, h.indexOf?_isSome_iff]

private theorem exists_indexOf?_of_mem (h : g.Integrity) (hk : k ∈ g.keys) : ∃ i, g.indexOf? k = some i :=
  Option.isSome_iff_exists.mp (h.indexOf?_isSome_iff.mpr hk)

/-- A relationship is taken up if both of its ends are there, and refused for the first that is not. -/
theorem connect_spec (h : g.Integrity) (r : Relationship) :
    match r.danglingEnd? g.keys with
    | some k => connect g r = .error (.missingEndpoint k)
    | none => ∃ g', connect g r = .ok g' ∧ g'.Integrity ∧ g'.keys = g.keys := by
  unfold Relationship.danglingEnd?
  by_cases hs : r.source ∈ g.keys
  · obtain ⟨i, hi⟩ := exists_indexOf?_of_mem h hs
    by_cases ht : r.target ∈ g.keys
    · obtain ⟨j, hj⟩ := exists_indexOf?_of_mem h ht
      have hedge : g.edge? r = some ⟨i, r.kind, j⟩ := edge?_eq_some_iff.mpr ⟨hi, hj, rfl⟩
      simp only [hs, ht, not_true_eq_false, if_false]
      exact ⟨g.mergeEdge ⟨i, r.kind, j⟩, by simp only [connect, hi, hj],
        h.mergeEdge (h.ends_of_edge? hedge), keys_mergeEdge g _⟩
    · simp [hs, ht, connect, hi, indexOf?_of_not_mem h ht]
  · simp [hs, connect, indexOf?_of_not_mem h hs]

private theorem foldlM_connect_eq_error_iff (h : g.Integrity) :
    rs.foldlM connect g = .error e ↔
      ∃ k, rs.findSome? (Relationship.danglingEnd? g.keys) = some k ∧ e = .missingEndpoint k := by
  induction rs generalizing g with
  | nil => simp [pure, Except.pure]
  | cons r rs ih =>
    have hr := connect_spec h r
    rw [List.foldlM_cons, List.findSome?_cons]
    split at hr
    · rename_i k hk
      rw [hr, hk]
      simp [bind, Except.bind, eq_comm]
    · rename_i hk
      obtain ⟨g', hg', hintegrity, hkeys⟩ := hr
      rw [hg', hk, ← hkeys]
      exact ih hintegrity

private theorem mergeNodes_spec (h : g.Integrity) (ns : List Node) :
    (ns.foldl mergeNode g).Integrity ∧
      ∀ k, k ∈ (ns.foldl mergeNode g).keys ↔ k ∈ g.keys ∨ k ∈ ns.map Node.key := by
  induction ns generalizing g with
  | nil => exact ⟨h, by simp⟩
  | cons n ns ih =>
    obtain ⟨hintegrity, hkeys⟩ := ih (h.mergeNode n)
    refine ⟨hintegrity, fun k => ?_⟩
    rw [List.foldl_cons, hkeys, mem_keys_mergeNode h, List.map_cons, List.mem_cons, or_assoc]

private theorem load_eq_error_iff {c : Contents} : load c = .error e ↔
    c.version ≠ snapshotVersion ∧ e = .snapshotVersion c.version ∨
      c.version = snapshotVersion ∧ ∃ k, c.danglingEnd? = some k ∧ e = .missingEndpoint k := by
  obtain ⟨hintegrity, hkeys⟩ := mergeNodes_spec integrity_empty c.nodes
  have hknown : ∀ k, k ∈ (c.nodes.foldl mergeNode .empty).keys ↔ k ∈ c.nodes.map Node.key := by
    simpa [PropertyGraph.keys, PropertyGraph.empty] using hkeys
  unfold load
  by_cases hversion : c.version = snapshotVersion
  · rw [if_pos hversion, foldlM_connect_eq_error_iff hintegrity,
      Relationship.danglingEnd?_congr hknown]
    simp [hversion, Contents.danglingEnd?]
  · simp [hversion, eq_comm]

private theorem ofText_eq_error_iff {text : String} {e : GraphError} : ofText text = .error e ↔
    (Json.read? text).bind contents? = none ∧ e = .snapshotJson ∨
      ∃ c, (Json.read? text).bind contents? = some c ∧ load c = .error e := by
  unfold ofText
  cases (Json.read? text).bind contents? <;> simp [eq_comm]

end Snapshot

namespace StoredGraph

variable {files : Files} {path text : String} {e : GraphError}

/-- What a file says, if it is a snapshot. -/
def snapshotIn? (files : Files) (path : String) : Option Snapshot.Contents :=
  (files.text? path).bind fun text => (Json.read? text).bind Snapshot.contents?

/-- Why a store cannot be opened. -/
inductive OpeningFails (files : Files) (path : String) : GraphError → Prop
  | unreadable : files.exists path → files.text? path = none →
    OpeningFails files path .snapshotFile
  | malformed {text : String} : files.text? path = some text → snapshotIn? files path = none →
    OpeningFails files path .snapshotJson
  | version {c : Snapshot.Contents} : snapshotIn? files path = some c →
    c.version ≠ snapshotVersion → OpeningFails files path (.snapshotVersion c.version)
  | dangling {c : Snapshot.Contents} {k : NodeKey} : snapshotIn? files path = some c →
    c.version = snapshotVersion → c.danglingEnd? = some k →
    OpeningFails files path (.missingEndpoint k)

private theorem snapshotIn?_of_text? (h : files.text? path = some text) :
    snapshotIn? files path = (Json.read? text).bind Snapshot.contents? := by
  rw [snapshotIn?, h, Option.bind_some]

private theorem openingFails_of_ofText (h : files.text? path = some text)
    (he : Snapshot.ofText text = .error e) : OpeningFails files path e := by
  have hin := snapshotIn?_of_text? h
  rcases Snapshot.ofText_eq_error_iff.mp he with ⟨hc, rfl⟩ | ⟨c, hc, hload⟩
  · exact .malformed h (hin.trans hc)
  · rcases Snapshot.load_eq_error_iff.mp hload with ⟨hversion, rfl⟩ | ⟨hversion, k, hk, rfl⟩
    · exact .version (hin.trans hc) hversion
    · exact .dangling (hin.trans hc) hversion hk

private theorem load_of_snapshotIn? {c : Snapshot.Contents} (h : snapshotIn? files path = some c) :
    load files path = Snapshot.load c := by
  obtain ⟨text, htext, hc⟩ := Option.bind_eq_some_iff.mp h
  rw [load_of_text? htext, Snapshot.ofText, hc]

private theorem load_eq_error_iff : load files path = .error e ↔ OpeningFails files path e := by
  constructor
  · intro h
    unfold load at h
    split at h
    · rename_i hexists
      split at h
      · rename_i text htext
        exact openingFails_of_ofText htext h
      · rename_i htext
        cases h
        exact .unreadable hexists htext
    · cases h
  · intro h
    cases h with
    | unreadable hexists htext => rw [load, if_pos hexists, htext]
    | malformed htext hnone =>
      rw [load_of_text? htext, Snapshot.ofText_eq_error_iff, ← snapshotIn?_of_text? htext]
      exact .inl ⟨hnone, rfl⟩
    | version hc hversion =>
      rw [load_of_snapshotIn? hc, Snapshot.load_eq_error_iff]
      exact .inl ⟨hversion, rfl⟩
    | dangling hc hversion hk =>
      rw [load_of_snapshotIn? hc, Snapshot.load_eq_error_iff]
      exact .inr ⟨hversion, _, hk, rfl⟩

/-- The errors of opening that read like those of a write. -/
theorem openingFails_dangling_iff : OpeningFails files path e ∧ e.isConnectivity = false ↔
    ∃ c k, snapshotIn? files path = some c ∧ c.version = snapshotVersion ∧
      c.danglingEnd? = some k ∧ e = .missingEndpoint k := by
  constructor
  · intro hboth
    obtain ⟨hfails, hscoped⟩ := hboth
    cases hfails with
    | dangling hc hversion hk => exact ⟨_, _, hc, hversion, hk, rfl⟩
    | _ => cases hscoped
  · intro hexists
    obtain ⟨c, k, hc, hversion, hk, rfl⟩ := hexists
    exact ⟨.dangling hc hversion hk, rfl⟩

private theorem ofFile_eq_error_iff : ofFile files path = .error e ↔ OpeningFails files path e := by
  rw [← load_eq_error_iff, ofFile]
  cases load files path <;> simp [Except.map]

end StoredGraph

namespace PropertyGraph

variable {g : PropertyGraph} {tx : Transaction} {e : GraphError}

private theorem isConnectivity_of_check {pending : List NodeKey} (h : g.check pending tx = .error e) :
    e.isConnectivity = false := by
  induction tx generalizing pending with
  | nil => cases h
  | cons w ws ih =>
    cases w with
    | node n =>
      rw [check] at h
      split at h
      · exact ih h
      · cases h
        rfl
    | relationship r =>
      rw [check] at h
      split at h
      · split at h
        · cases h
          rfl
        · exact ih h
      · cases h
        rfl

private theorem isConnectivity_of_write {w : Write} (h : (g.write w).2 = .error e) :
    e.isConnectivity = false := by
  cases w with
  | node n => cases h
  | relationship r =>
    simp only [write] at h
    split at h
    · cases h
    · cases h
      rfl

private theorem isConnectivity_of_execute (h : (g.execute tx).2 = .error e) : e.isConnectivity = false := by
  induction tx generalizing g with
  | nil => cases h
  | cons w ws ih =>
    rw [execute] at h
    split at h
    · rename_i g₁ e₁ hw
      cases h
      exact isConnectivity_of_write (by rw [hw])
    · rename_i g₁ s hw
      cases hrest : (g₁.execute ws).2 with
      | ok s' => simp [hrest, Except.map] at h
      | error e' =>
        simp only [hrest, Except.map, Except.error.injEq] at h
        exact ih (h ▸ hrest)

/-- Whatever is wrong with a transaction, the store can be used as before. -/
theorem isConnectivity_of_apply (h : (g.apply tx).2 = .error e) : e.isConnectivity = false := by
  unfold apply at h
  split at h
  · rename_i e' hcheck
    cases h
    exact isConnectivity_of_check hcheck
  · exact isConnectivity_of_execute h

end PropertyGraph

end Graph

/-- All errors of opening a store mean that it cannot be used, except where its snapshot has a
relationship with an end that is no node: then the first such end is the error. No error of a
transaction means that, and ingestion ends for just those errors that do. -/
theorem isConnectivity_except_dangling (files : Files) (path : String) (g : PropertyGraph)
    (tx : Transaction) (f : Fact) :
    ((∀ e, StoredGraph.ofFile files path = .error e → e.isConnectivity) ↔
      ∀ c, StoredGraph.snapshotIn? files path = some c → c.version = snapshotVersion →
        c.danglingEnd? = none) ∧
    (∀ e, StoredGraph.ofFile files path = .error e ∧ e.isConnectivity = false ↔
      ∃ c k, StoredGraph.snapshotIn? files path = some c ∧ c.version = snapshotVersion ∧
        c.danglingEnd? = some k ∧ e = .missingEndpoint k) ∧
    (∀ e, (Store.memory.apply g tx).2 = .error e → e.isConnectivity = false) ∧
    ∀ e, (IngestError.ofStore f e).isFatal = e.isConnectivity := by
  have hdangling : ∀ e, StoredGraph.ofFile files path = .error e ∧ e.isConnectivity = false ↔
      ∃ c k, StoredGraph.snapshotIn? files path = some c ∧ c.version = snapshotVersion ∧
        c.danglingEnd? = some k ∧ e = .missingEndpoint k := by
    intro e
    rw [StoredGraph.ofFile_eq_error_iff, StoredGraph.openingFails_dangling_iff]
  refine ⟨?_, hdangling, fun e => PropertyGraph.isConnectivity_of_apply, IngestError.isFatal_ofStore f⟩
  constructor
  · intro hall c hc hversion
    rw [Option.eq_none_iff_forall_ne_some]
    intro k hk
    obtain ⟨hfailed, hscoped⟩ := (hdangling _).mpr ⟨c, k, hc, hversion, hk, rfl⟩
    cases hscoped.symm.trans (hall _ hfailed)
  · intro hnone e hfailed
    by_contra hscoped
    obtain ⟨c, k, hc, hversion, hk, -⟩ :=
      (hdangling e).mp ⟨hfailed, Bool.eq_false_iff.mpr hscoped⟩
    cases (hnone c hc hversion).symm.trans hk

/-- A snapshot of another version: its store cannot be used, and ingestion into it ends. -/
theorem isConnectivity_of_other_version :
    let files := ((Files.empty ["home"]).writeText "graph.json" "[99,[],[]]").1
    StoredGraph.ofFile files "graph.json" = .error (.snapshotVersion 99) ∧
      (GraphError.snapshotVersion 99).isConnectivity = true := by
  intro files
  have hwritten : (Files.empty ["home"]).writeText "graph.json" "[99,[],[]]" = (files, true) :=
    Prod.ext rfl (by decide +kernel)
  have hload : Snapshot.ofText "[99,[],[]]" = .error (.snapshotVersion 99) := by decide +kernel
  have hopened : StoredGraph.ofFile files "graph.json" = .error (.snapshotVersion 99) :=
    StoredGraph.ofFile_eq_error_iff.mpr
      (StoredGraph.openingFails_of_ofText (text?_of_writeText hwritten) hload)
  obtain ⟨-, hscoped, -⟩ :=
    isConnectivity_except_dangling files "graph.json" .empty [] (.classDeclared "A")
  refine ⟨hopened, ?_⟩
  by_contra hnot
  obtain ⟨c, k, -, -, -, hmissing⟩ := (hscoped _).mp ⟨hopened, Bool.eq_false_iff.mpr hnot⟩
  cases hmissing

/-- A store that cannot be opened, with an error that is not about the store: its snapshot relates two
classes and has neither. -/
theorem opening_error_not_isConnectivity :
    let text := "[1,[],[[[\"Class\",\"A\"],\"EXTENDS\",[\"Class\",\"B\"]]]]"
    let files := ((Files.empty ["home"]).writeText "graph.json" text).1
    let e : GraphError := .missingEndpoint (.ofClass "A")
    StoredGraph.ofFile files "graph.json" = .error e ∧ e.isConnectivity = false ∧
      ∀ f, (IngestError.ofStore f e).isFatal = false := by
  intro text files e
  have hwritten : (Files.empty ["home"]).writeText "graph.json" text = (files, true) :=
    Prod.ext rfl (by decide +kernel)
  have hload : Snapshot.ofText text = .error e := by decide +kernel
  exact ⟨StoredGraph.ofFile_eq_error_iff.mpr
    (StoredGraph.openingFails_of_ofText (text?_of_writeText hwritten) hload), rfl, fun f => rfl⟩

end StructureGraph
