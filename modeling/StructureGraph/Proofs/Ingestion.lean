import StructureGraph.Proofs.Fact
import StructureGraph.Proofs.Graph.Session

namespace StructureGraph

open StructureGraph.Graph
open StructureGraph.Graph.PropertyGraph

namespace Fact

/-- Every key that the fact mentions is valid. -/
def isAccepted (k : MethodKeying) (f : Fact) : Bool := (f.keys k).all NodeKey.isValid

/-- How a fact is reported that mentions an invalid key. -/
def rejection? (k : MethodKeying) (f : Fact) : Option (Fact × IngestError) :=
  ((f.keys k).find? (!·.isValid)).map fun key => (f, .write f (.invalidKey key))

variable {k : MethodKeying} {f : Fact}

private theorem rejection?_eq_none_iff : f.rejection? k = none ↔ f.isAccepted k := by
  simp [rejection?, isAccepted]

private theorem isAccepted_eq_false_of_rejection? {p : Fact × IngestError} (h : f.rejection? k = some p) :
    f.isAccepted k = false := by
  rw [← Bool.not_eq_true, ← rejection?_eq_none_iff, h]
  simp

private theorem fst_of_rejection? {p : Fact × IngestError} (h : f.rejection? k = some p) : p.1 = f := by
  obtain ⟨key, -, rfl⟩ := Option.map_eq_some_iff.mp h
  rfl

end Fact

theorem IngestError.isFatal_ofStore (f : Fact) (e : GraphError) :
    (IngestError.ofStore f e).isFatal = e.isConnectivity := by
  unfold IngestError.ofStore
  split <;> simp_all [IngestError.isFatal]

variable {k : MethodKeying} {f : Fact} {g g' : PropertyGraph} {fs : List Fact}

/-- Merging nodes comes to grief at the first invalid key. -/
theorem check_nodes (g : PropertyGraph) (ns : List Node) (pending : List NodeKey)
    (ws : Transaction) :
    g.check pending (ns.map .node ++ ws) =
      match (ns.map Node.key).find? (!·.isValid) with
      | some key => .error (.invalidKey key)
      | none => g.check ((ns.map Node.key).reverse ++ pending) ws := by
  induction ns generalizing pending with
  | nil => rfl
  | cons n ns ih =>
    cases hn : n.key.isValid with
    | false => simp [check, hn]
    | true => simp [check, hn, ih]

private theorem check_transaction (g : PropertyGraph) (k : MethodKeying) (f : Fact) :
    g.check [] (f.transaction k) =
      match (f.keys k).find? (!·.isValid) with
      | some key => .error (.invalidKey key)
      | none => .ok () := by
  rw [Fact.transaction_eq, check_nodes, ← Fact.keys]
  split
  · rfl
  · cases hr : f.relationship? k with
    | none => rfl
    | some r =>
      obtain ⟨hsource, htarget⟩ := Fact.ends_of_relationship? hr
      simp [check, Fact.isWellTyped_of_relationship? hr, firstMissing, hsource, htarget]

private theorem ingest_of_isAccepted (h : g.Integrity) (hf : f.isAccepted k) :
    ∃ g' s, Store.memory.ingest k g f = (g', .ok s) ∧ Effect g (f.transaction k) g' s := by
  have hvalid : (f.keys k).find? (!·.isValid) = none := by simpa [Fact.isAccepted] using hf
  have hcheck : g.check [] (f.transaction k) = .ok () := by rw [check_transaction, hvalid]
  obtain ⟨s, hs⟩ := execute_of_check h hcheck
  refine ⟨(g.execute (f.transaction k)).1, s, ?_, execute_effect h (Prod.ext rfl hs)⟩
  simp [Store.ingest, Store.memory, PropertyGraph.apply, hcheck, hs, Except.mapError]

/-- A fact that is refused leaves the graph as it was. -/
theorem ingest_of_rejection {p : Fact × IngestError} (hf : f.rejection? k = some p) :
    Store.memory.ingest k g f = (g, .error p.2) ∧ p.2.isFatal = false := by
  obtain ⟨key, hkey, rfl⟩ := Option.map_eq_some_iff.mp hf
  have hcheck : g.check [] (f.transaction k) = .error (.invalidKey key) := by
    rw [check_transaction, hkey]
  refine ⟨?_, rfl⟩
  simp [Store.ingest, Store.memory, PropertyGraph.apply, hcheck, Except.mapError,
    IngestError.ofStore, GraphError.isConnectivity]

private theorem ingest_isOk_iff (h : g.Integrity) (k : MethodKeying) (f : Fact) :
    (∃ s, (Store.memory.ingest k g f).2 = .ok s) ↔ f.isAccepted k := by
  constructor
  · intro hexists
    obtain ⟨s, hs⟩ := hexists
    by_contra hf
    obtain ⟨p, hp⟩ := Option.ne_none_iff_exists'.mp (mt Fact.rejection?_eq_none_iff.mp hf)
    rw [(ingest_of_rejection hp).1] at hs
    cases hs
  · intro hf
    obtain ⟨g', s, hs, -⟩ := ingest_of_isAccepted h hf
    exact ⟨s, by rw [hs]⟩

/-- All that the accepted facts among some write. -/
def acceptedWrites (k : MethodKeying) (fs : List Fact) : Transaction :=
  (fs.filter (·.isAccepted k)).flatMap (·.transaction k)

theorem WriteSummary.add_assoc (a b c : WriteSummary) : (a.add b).add c = a.add (b.add c) := by
  simp [WriteSummary.add, Nat.add_assoc]

/-- The whole run, by induction on the facts; graph and report are those that earlier facts leave. -/
theorem ingestFrom_bestEffort (h : g.Integrity) (report : IngestReport) (fs : List Fact) :
    ∃ g' s, Store.memory.ingestFrom k .bestEffort report g fs =
        (g', .ok ⟨report.factsApplied + fs.countP (·.isAccepted k), report.created.add s,
          report.failures ++ fs.filterMap (·.rejection? k)⟩) ∧
      Effect g (acceptedWrites k fs) g' s := by
  induction fs generalizing g report with
  | nil =>
    refine ⟨g, .empty, ?_, .refl h⟩
    simp [Store.ingestFrom, WriteSummary.add, WriteSummary.empty]
  | cons f fs ih =>
    cases hf : f.rejection? k with
    | none =>
      have hf : f.isAccepted k := Fact.rejection?_eq_none_iff.mp hf
      obtain ⟨g₁, s₁, hg₁, heffect₁⟩ := ingest_of_isAccepted h hf
      obtain ⟨g₂, s₂, hg₂, heffect₂⟩ := ih heffect₁.integrity (report.record s₁)
      refine ⟨g₂, s₁.add s₂, ?_, ?_⟩
      · have hnone : f.rejection? k = none := Fact.rejection?_eq_none_iff.mpr hf
        simp only [Store.ingestFrom, hg₁, hg₂]
        simp [IngestReport.record, WriteSummary.add_assoc, hf, hnone, Nat.add_assoc, Nat.add_comm]
      · have hwrites : acceptedWrites k (f :: fs) = f.transaction k ++ acceptedWrites k fs := by
          simp [acceptedWrites, hf]
        rw [hwrites]
        exact heffect₁.append heffect₂
    | some p =>
      obtain ⟨hrefused, hfatal⟩ := ingest_of_rejection (g := g) hf
      have hrejected : f.isAccepted k = false := Fact.isAccepted_eq_false_of_rejection? hf
      obtain ⟨g₂, s₂, hg₂, heffect₂⟩ := ih h (report.recordFailure f p.2)
      refine ⟨g₂, s₂, ?_, ?_⟩
      · have hp : (f, p.2) = p := by rw [← Fact.fst_of_rejection? hf]
        simp only [Store.ingestFrom, hrefused, hfatal, Bool.false_or, reduceCtorEq, decide_false,
          Bool.false_eq_true, if_false, hg₂]
        simp [IngestReport.recordFailure, hrejected, hf, hp]
      · have hwrites : acceptedWrites k (f :: fs) = acceptedWrites k fs := by
          simp [acceptedWrites, hrejected]
        rwa [hwrites]

/-- What ingestion makes of a graph, and what its report says. -/
structure Ingested (k : MethodKeying) (fs : List Fact) (g g' : PropertyGraph)
    (report : IngestReport) : Prop where
  integrity : g'.Integrity
  mem_keys : ∀ key, key ∈ g'.keys ↔ key ∈ g.keys ∨ ∃ f ∈ fs, f.isAccepted k ∧ key ∈ f.keys k
  mem_relationships : ∀ r, r ∈ g'.relationships ↔
    r ∈ g.relationships ∨ ∃ f ∈ fs, f.isAccepted k ∧ f.relationship? k = some r
  /-- Nodes stay as they were, and new ones are as the first accepted fact has them. -/
  node? : ∀ key, g'.node? key =
    (g.node? key).or ((fs.filter (·.isAccepted k)).findSome? (·.node? k key))
  failures : report.failures = fs.filterMap (·.rejection? k)
  failed_facts : report.failures.map Prod.fst = fs.filter (!·.isAccepted k)
  facts_applied : report.factsApplied + report.failures.length = fs.length
  nodes_created : g'.counts.nodes = g.counts.nodes + report.created.nodesCreated
  relationships_created :
    g'.counts.relationships = g.counts.relationships + report.created.relationshipsCreated

private theorem mem_mergedKeys_acceptedWrites {key : NodeKey} :
    key ∈ mergedKeys (acceptedWrites k fs) ↔ ∃ f ∈ fs, f.isAccepted k ∧ key ∈ f.keys k := by
  simp only [← Fact.mergedKeys_transaction, mem_mergedKeys, acceptedWrites, List.mem_flatMap,
    List.mem_filter]
  constructor
  · intro hexists
    obtain ⟨n, ⟨f, ⟨hf, haccepted⟩, hn⟩, rfl⟩ := hexists
    exact ⟨f, hf, haccepted, n, hn, rfl⟩
  · intro hexists
    obtain ⟨f, hf, haccepted, n, hn, rfl⟩ := hexists
    exact ⟨n, ⟨f, ⟨hf, haccepted⟩, hn⟩, rfl⟩

private theorem relationship_mem_acceptedWrites {r : Relationship} :
    .relationship r ∈ acceptedWrites k fs ↔
      ∃ f ∈ fs, f.isAccepted k ∧ f.relationship? k = some r := by
  simp [acceptedWrites, Fact.relationship_mem_transaction, and_assoc]

private theorem firstMerged?_acceptedWrites (k : MethodKeying) (key : NodeKey) (fs : List Fact) :
    firstMerged? key (acceptedWrites k fs) =
      (fs.filter (·.isAccepted k)).findSome? (·.node? k key) := by
  simp only [acceptedWrites, ← Fact.firstMerged?_transaction]
  induction fs.filter (·.isAccepted k) with
  | nil => rfl
  | cons f fs ih =>
    rw [List.flatMap_cons, firstMerged?_append, ih, List.findSome?_cons]
    cases firstMerged? key (f.transaction k) <;> rfl

private theorem map_fst_rejections (k : MethodKeying) (fs : List Fact) :
    (fs.filterMap (·.rejection? k)).map Prod.fst = fs.filter (!·.isAccepted k) := by
  induction fs with
  | nil => rfl
  | cons f fs ih =>
    cases hf : f.rejection? k with
    | none => simp [hf, Fact.rejection?_eq_none_iff.mp hf, ih]
    | some p =>
      have hrejected : f.isAccepted k = false := Fact.isAccepted_eq_false_of_rejection? hf
      simp [hf, hrejected, ih, Fact.fst_of_rejection? hf]

private theorem ingested_of_effect {s : WriteSummary} (h : Effect g (acceptedWrites k fs) g' s) :
    Ingested k fs g g' ⟨fs.countP (·.isAccepted k), s, fs.filterMap (·.rejection? k)⟩ where
  integrity := h.integrity
  mem_keys key := by rw [h.mem_keys, mem_mergedKeys_acceptedWrites]
  mem_relationships r := by rw [h.mem_relationships, relationship_mem_acceptedWrites]
  node? key := by rw [h.node?, firstMerged?_acceptedWrites]
  failures := rfl
  failed_facts := map_fst_rejections k fs
  facts_applied := by
    have hfailed : (fs.filterMap (·.rejection? k)).length = fs.countP (!·.isAccepted k) := by
      rw [← List.length_map Prod.fst, map_fst_rejections, List.countP_eq_length_filter]
    simp [hfailed, List.length_eq_countP_add_countP (·.isAccepted k) (l := fs)]
  nodes_created := h.nodes_created
  relationships_created := h.edges_created

theorem ingestAll_effect (h : g.Integrity) (k : MethodKeying) (fs : List Fact) :
    ∃ g' report, Store.memory.ingestAll k .bestEffort g fs = (g', .ok report) ∧
      Ingested k fs g g' report := by
  obtain ⟨g', s, hg', heffect⟩ := ingestFrom_bestEffort (k := k) h .empty fs
  refine ⟨g', _, hg', ?_⟩
  simpa [IngestReport.empty, WriteSummary.add, WriteSummary.empty] using ingested_of_effect heffect

/-- Facts in another order make the same nodes and relationships, and fail as the same ones do. -/
theorem Ingested.perm {g₁ g₂ : PropertyGraph} {fs₁ fs₂ : List Fact} {report₁ report₂ : IngestReport}
    (h₁ : Ingested k fs₁ g g₁ report₁) (h₂ : Ingested k fs₂ g g₂ report₂) (hfs : fs₁.Perm fs₂) :
    g₁.keys.Perm g₂.keys ∧ g₁.relationships.Perm g₂.relationships ∧
      report₁.failures.Perm report₂.failures := by
  refine ⟨(List.perm_ext_iff_of_nodup h₁.integrity.keys_nodup h₂.integrity.keys_nodup).mpr
      fun key => ?_,
    (List.perm_ext_iff_of_nodup h₁.integrity.relationships_nodup
      h₂.integrity.relationships_nodup).mpr fun r => ?_, ?_⟩
  · simp only [h₁.mem_keys, h₂.mem_keys, hfs.mem_iff]
  · simp only [h₁.mem_relationships, h₂.mem_relationships, hfs.mem_iff]
  · rw [h₁.failures, h₂.failures]
    exact hfs.filterMap _

/-- What the writing of each fact preserves, the run preserves, wherever it stops. -/
theorem Graph.Store.ingestFrom_preserves {σ : Type} {s : Store σ} {p : σ → Prop}
    (hstep : ∀ state, p state → ∀ f ∈ fs, p (s.ingest k state f).1) (mode : IngestMode)
    (report : IngestReport) {state : σ} (hstate : p state) :
    p (s.ingestFrom k mode report state fs).1 := by
  induction fs generalizing state report with
  | nil => exact hstate
  | cons f fs ih =>
    have hrest : ∀ state, p state → ∀ f ∈ fs, p (s.ingest k state f).1 :=
      fun state hstate f hf => hstep state hstate f (List.mem_cons_of_mem _ hf)
    have hfirst : p (s.ingest k state f).1 := hstep state hstate f List.mem_cons_self
    rw [Store.ingestFrom]
    split
    · rename_i state₁ summary hrun
      rw [hrun] at hfirst
      exact ih hrest _ hfirst
    · rename_i state₁ e hrun
      rw [hrun] at hfirst
      split
      · exact hfirst
      · exact ih hrest _ hfirst

/-- Graphs that are made by ingestion are among those that stores come to hold. -/
theorem Graph.Reachable.ingestAll (hg : Reachable g) (k : MethodKeying) (mode : IngestMode)
    (fs : List Fact) : Reachable (Store.memory.ingestAll k mode g fs).1 :=
  Store.ingestFrom_preserves (fun _ h f _ => h.apply (f.transaction k)) mode .empty hg

/-- A fact adds no nodes but those that it mentions, as it has them. -/
theorem mem_nodes_of_ingest (hg : g.Integrity) {n : Node}
    (hn : n ∈ (Store.memory.ingest k g f).1.nodes) : n ∈ g.nodes ∨ n ∈ f.nodes k := by
  cases hf : f.rejection? k with
  | some p =>
    rw [(ingest_of_rejection hf).1] at hn
    exact .inl hn
  | none =>
    obtain ⟨g', s, hg', heffect⟩ := ingest_of_isAccepted hg (Fact.rejection?_eq_none_iff.mp hf)
    rw [hg'] at hn
    have hnode : g'.node? n.key = some n := heffect.integrity.node?_eq_some_iff.mpr ⟨hn, rfl⟩
    rw [heffect.node?, Fact.firstMerged?_transaction, Option.or_eq_some_iff] at hnode
    rcases hnode with hold | ⟨-, hnew⟩
    · exact .inl (hg.node?_eq_some_iff.mp hold).1
    · exact .inr (List.mem_of_find?_eq_some hnew)

theorem mem_nodes_of_ingestAll (hg : Reachable g) {mode : IngestMode} {n : Node}
    (hn : n ∈ (Store.memory.ingestAll k mode g fs).1.nodes) :
    n ∈ g.nodes ∨ ∃ f ∈ fs, n ∈ f.nodes k := by
  have hstep : ∀ g', (Reachable g' ∧ ∀ n ∈ g'.nodes, n ∈ g.nodes ∨ ∃ f ∈ fs, n ∈ f.nodes k) →
      ∀ f ∈ fs, Reachable (Store.memory.ingest k g' f).1 ∧
        ∀ n ∈ (Store.memory.ingest k g' f).1.nodes, n ∈ g.nodes ∨ ∃ f ∈ fs, n ∈ f.nodes k := by
    intro g' h f hf
    refine ⟨h.1.apply _, fun n hn => ?_⟩
    rcases mem_nodes_of_ingest h.1.integrity hn with hold | hnew
    · exact h.2 n hold
    · exact .inr ⟨f, hf, hnew⟩
  exact (Store.ingestFrom_preserves hstep mode .empty ⟨hg, fun _ => .inl⟩).2 n hn

/-- Ingestion adds just what the accepted facts say, and a fact is accepted for its keys alone. So the
order of the facts makes no difference to what is there and what fails. -/
theorem ingestAll_adds_accepted_facts (hg : Reachable g) (k : MethodKeying) (fs : List Fact) :
    (∀ f, (∃ s, (Store.memory.ingest k g f).2 = .ok s) ↔ f.isAccepted k) ∧
      ∃ g' report, Store.memory.ingestAll k .bestEffort g fs = (g', .ok report) ∧
        Ingested k fs g g' report ∧
        ∀ fs₂ : List Fact, fs₂.Perm fs → ∃ g₂ report₂,
          Store.memory.ingestAll k .bestEffort g fs₂ = (g₂, .ok report₂) ∧
            g₂.keys.Perm g'.keys ∧ g₂.relationships.Perm g'.relationships ∧
            report₂.failures.Perm report.failures := by
  have h := hg.integrity
  obtain ⟨g', report, hrun, hingested⟩ := ingestAll_effect h k fs
  refine ⟨ingest_isOk_iff h k, g', report, hrun, hingested, fun fs₂ hfs => ?_⟩
  obtain ⟨g₂, report₂, hrun₂, hingested₂⟩ := ingestAll_effect h k fs₂
  exact ⟨g₂, report₂, hrun₂, hingested₂.perm hingested hfs⟩

theorem ingestAll_adds_accepted_facts_blank_name :
    let g := (Store.memory.ingestAll .bareName .bestEffort .empty [.classDeclared "A"]).1
    let fs : List Fact := [.inherits "A" "B", .classDeclared " "]
    Reachable g ∧ ∃ g' report, Store.memory.ingestAll .bareName .bestEffort g fs = (g', .ok report) ∧
      NodeKey.ofClass "B" ∈ g'.keys ∧ report.failures.map Prod.fst = [.classDeclared " "] := by
  intro g fs
  have hg : Reachable g := reachable_empty.ingestAll _ _ _
  obtain ⟨g', report, hrun, h, -⟩ := (ingestAll_adds_accepted_facts hg .bareName fs).2
  have hparent : NodeKey.ofClass "B" ∈ g'.keys :=
    (h.mem_keys _).mpr (.inr ⟨.inherits "A" "B", by simp [fs], by decide +kernel, by decide +kernel⟩)
  have hfailed : fs.filter (!·.isAccepted .bareName) = [.classDeclared " "] := by decide +kernel
  exact ⟨hg, g', report, hrun, hparent, h.failed_facts.trans hfailed⟩

end StructureGraph
