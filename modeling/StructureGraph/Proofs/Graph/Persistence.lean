import StructureGraph.Graph.Query
import StructureGraph.Proofs.Graph.Growth
import StructureGraph.Proofs.Graph.Session

namespace StructureGraph.Graph

namespace Snapshot

open PropertyGraph

variable {g g' : PropertyGraph}

private theorem nodes_foldl_mergeNode (h : g.Integrity) {ns : List Node}
    (hnew : (g.keys ++ ns.map Node.key).Nodup) :
    (ns.foldl PropertyGraph.mergeNode g).nodes = g.nodes ++ ns := by
  induction ns generalizing g with
  | nil => simp
  | cons n ns ih =>
    have hn : n.key ∉ g.keys := by
      intro hk
      exact (List.nodup_append.mp hnew).2.2 n.key hk n.key (by simp) rfl
    have hmerged := mergeNode_of_not_mem h hn
    have hkeys : (g.mergeNode n).keys = g.keys ++ [n.key] := by rw [hmerged, keys_append]
    have hrest : ((g.mergeNode n).keys ++ ns.map Node.key).Nodup := by
      rw [hkeys, List.append_assoc]
      exact hnew
    rw [List.foldl_cons, ih (h.mergeNode n) hrest, hmerged, List.append_assoc]
    rfl

private theorem edges_foldl_mergeNode (g : PropertyGraph) (ns : List Node) :
    (ns.foldl PropertyGraph.mergeNode g).edges = g.edges := by
  induction ns generalizing g with
  | nil => rfl
  | cons n ns ih => rw [List.foldl_cons, ih, edges_mergeNode]

private theorem connect_of_edge? {r : Relationship} {e : Edge} (he : g.edge? r = some e) :
    connect g r = .ok (g.mergeEdge e) := by
  obtain ⟨hs, ht, hk⟩ := edge?_eq_some_iff.mp he
  simp only [connect, hs, ht, hk]

/-- Edges that are named by their relationships are added in their order, in any graph that has the
same nodes. -/
theorem foldlM_connect_relationships (h' : g'.Integrity) (hnodes : g'.nodes = g.nodes) {es : List Edge}
    (hends : ∀ e ∈ es, e.source < g.nodes.length ∧ e.target < g.nodes.length)
    (hnew : (g'.edges ++ es).Nodup) :
    (es.filterMap g.relationship?).foldlM connect g' =
      .ok { g' with edges := g'.edges ++ es } := by
  induction es generalizing g' with
  | nil =>
    rw [List.append_nil]
    rfl
  | cons e es ih =>
    obtain ⟨he, hes⟩ := List.forall_mem_cons.mp hends
    have hsome : (g.relationship? e).isSome := by
      simp [PropertyGraph.relationship?, List.getElem?_eq_getElem he.1, List.getElem?_eq_getElem he.2]
    obtain ⟨r, hr⟩ := Option.isSome_iff_exists.mp hsome
    have hr' : g'.relationship? e = some r := by
      rw [← hr]
      simp only [PropertyGraph.relationship?, hnodes]
    have hedge : g'.edge? r = some e := h'.edge?_eq_some_iff_relationship?.mpr hr'
    have hfresh : e ∉ g'.edges := by
      intro hmem
      exact (List.nodup_append.mp hnew).2.2 e hmem e (by simp) rfl
    have hmerged : g'.mergeEdge e = { g' with edges := g'.edges ++ [e] } :=
      if_neg fun hmem => hfresh (List.contains_iff_mem.mp hmem)
    have hintegrity : (g'.mergeEdge e).Integrity := h'.mergeEdge (by rwa [hnodes])
    rw [hmerged] at hintegrity
    have hrest := ih hintegrity hnodes hes (by simpa using hnew)
    rw [List.filterMap_cons_some hr, List.foldlM_cons, connect_of_edge? hedge, hmerged]
    simpa [bind, Except.bind] using hrest

/-- A graph is what its own snapshot says. -/
theorem ofText_toText_eq (h : g.Integrity) (hindex : g.Indexed) : ofText (toText g) = .ok g := by
  let g₁ := g.nodes.foldl PropertyGraph.mergeNode .empty
  have hnodes : g₁.nodes = g.nodes := nodes_foldl_mergeNode integrity_empty h.keys_nodup
  have hedges : g₁.edges = [] := edges_foldl_mergeNode .empty g.nodes
  obtain ⟨s, hexecute⟩ := execute_nodes .empty g.nodes
  have hintegrity₁ : g₁.Integrity := (execute_effect integrity_empty hexecute).integrity
  have hindex₁ : g₁.Indexed := by
    have hgrows := grows_execute .empty (g.nodes.map .node)
    rw [hexecute] at hgrows
    exact hgrows.indexed indexed_empty
  have hconnect : g.relationships.foldlM connect g₁ = .ok { g₁ with edges := g₁.edges ++ g.edges } :=
    foldlM_connect_relationships hintegrity₁ hnodes h.ends_stored (by
      rw [hedges]
      exact h.edges_nodup)
  have hsame : { g₁ with edges := g₁.edges ++ g.edges } = g := by
    refine Indexed.ext hindex₁ hindex hnodes ?_
    rw [hedges, List.nil_append]
  rw [ofText_toText, load, if_pos rfl]
  exact hconnect.trans (by rw [hsame])

end Snapshot

open PropertyGraph

private theorem StoredGraph.grows_load {files : Files} {path : String} {g : PropertyGraph}
    (h : load files path = .ok g) : Grows .empty g := by
  rcases of_load_eq_ok h with rfl | ⟨text, -, htext⟩
  · exact .refl
  · exact grows_ofText htext

/-- Whatever is done with a store, its graph has been made by merging nodes and edges. -/
theorem Session.isInvariant_grows : IsInvariant (Grows .empty) where
  empty := .refl
  load := StoredGraph.grows_load
  apply h tx := h.trans (grows_apply _ tx)

theorem Reachable.indexed {g : PropertyGraph} (h : Reachable g) : g.Indexed :=
  (h.of_isInvariant Session.isInvariant_grows).indexed indexed_empty

/-- Every graph that a store comes to hold is what its own snapshot says. -/
theorem Reachable.ofText_toText {g : PropertyGraph} (h : Reachable g) :
    Snapshot.ofText (Snapshot.toText g) = .ok g :=
  Snapshot.ofText_toText_eq h.integrity h.indexed

namespace StoredGraph

open Files (SameConditions SameDirectories)

variable {files files' : Files} {path : String} {s : StoredGraph} {g g' : PropertyGraph}

theorem ofFile_of_bytes? (h : Reachable g)
    (hb : files.bytes? path = some (Snapshot.toText g).toUTF8) :
    ofFile files path = .ok ⟨g, some path⟩ :=
  ofFile_of_text? (text?_of_bytes? hb) h.ofText_toText

theorem createParent_again {files₁ files₂ : Files} (h : createParent files path = (files₁, true))
    (hsame : SameDirectories files₁ files₂) : createParent files₂ path = (files₂, true) := by
  obtain ⟨ss, -, hss⟩ := exists_steps_createParent path
  rw [hss] at h ⊢
  rw [hsame.workingDirectory, Files.workingDirectory_makeSteps h]
  exact Files.makeSteps_again h hsame

theorem system_createParent {created : Bool} (h : createParent files path = (files', created)) :
    files'.system = files.system := by
  obtain ⟨ss, -, hss⟩ := exists_steps_createParent path
  rw [hss] at h
  exact Files.system_makeSteps h

/-- The system takes the snapshot of one graph wherever it takes that of another. -/
def WritesLike (f : Files) (g g' : PropertyGraph) : Prop :=
  ∀ place, f.system.writeFault? place (Json.compact (Snapshot.toJson g)).toUTF8 = none →
    f.system.writeFault? place (Json.compact (Snapshot.toJson g')).toUTF8 = none

theorem WritesLike.refl (f : Files) (g : PropertyGraph) : WritesLike f g g := fun _ h => h

private theorem WritesLike.of_system {f f' : Files} (h : WritesLike f g g')
    (hsystem : f'.system = f.system) : WritesLike f' g g' := by
  rwa [WritesLike, hsystem]

private theorem exists_writeTemporary {f f' f₂ : Files} (h : writeTemporary g f path = (f', true))
    (hsame : SameConditions f f₂) (hwrites : WritesLike f g g') :
    ∃ f₂', writeTemporary g' f₂ path = (f₂', true) ∧ SameConditions f' f₂' := by
  obtain ⟨created, written, ended, hcreated, hsnapshot, hend, hsynced⟩ := writeTemporary_eq_true_iff.mp h
  have hputs := Files.puts_createFile f (temporaryPath path)
  rw [hcreated] at hputs
  have hwrites₁ := hwrites.of_system hputs.sameConditions.system
  obtain ⟨c₁, hcreated₂, hsame₁⟩ := Files.exists_createFile hcreated hsame
  obtain ⟨c₂, hsnapshot₂, hsame₂⟩ :=
    Files.exists_appendBytes hsnapshot hsame₁ (Files.createFile_bytes? hcreated₂) hwrites₁
  obtain ⟨b, -, hb⟩ := Files.appendBytes_bytes? hsnapshot₂
  obtain ⟨c₃, hend₂, hsame₃⟩ := Files.exists_appendBytes hend hsame₂ hb fun _ hnone => hnone
  obtain ⟨c₄, hsynced₂, hsame₄⟩ := Files.exists_syncFile hsynced hsame₃
  exact ⟨c₄, writeTemporary_eq_true_iff.mpr ⟨c₁, c₂, c₃, hcreated₂, hsnapshot₂, hend₂, hsynced₂⟩, hsame₄⟩

/-- Whether a save succeeds depends on the directories that are there once that of the graph is, and on
the system. -/
theorem save_of_sameConditions {f f' f₁ f₂ f₂' : Files} (h : save g f path = (f', true))
    (hcreated : createParent f path = (f₁, true)) (hcreated₂ : createParent f₂ path = (f₂', true))
    (hsame : SameConditions f₁ f₂') (hwrites : WritesLike f g g') : (save g' f₂ path).2 = true := by
  cases saved_of_save h with
  | @written f₁' f₃ _ _ hcreated' hwritten hmoved =>
    rw [hcreated, Prod.mk.injEq] at hcreated'
    obtain ⟨rfl, -⟩ := hcreated'
    have hwrites₁ := hwrites.of_system (system_createParent hcreated)
    obtain ⟨f₃', hwritten₂, hsame₃⟩ := exists_writeTemporary hwritten hsame hwrites₁
    have hmoves := Files.moveFile_succeeds hmoved hsame₃ (writeTemporary_bytes? hwritten₂)
    have hsave : save g' f₂ path = ((f₃'.moveFile (temporaryPath path) path).1, true) :=
      save_eq_true_iff.mpr ⟨f₂', f₃', hcreated₂, hwritten₂, Prod.ext rfl hmoves⟩
    rw [hsave]

/-- Where a graph was saved it can be saved again. -/
theorem save_again (h : save g files path = (files', true)) : (save g files' path).2 = true := by
  cases saved_of_save h with
  | written hcreated hwritten hmoved =>
    have hsame := (sameConditions_writeTemporary hwritten).trans (Files.sameConditions_moveFile hmoved)
    exact save_of_sameConditions h hcreated (createParent_again hcreated hsame.toSameDirectories) hsame
      (.refl files g)

/-- A graph that was persisted can be persisted again, which writes the same file. -/
theorem persist_again (h : s.persist files = (files', .ok ())) (hpath : s.path = some path) :
    ∃ files'', s.persist files' = (files'', .ok ()) ∧ files''.bytes? path = files'.bytes? path := by
  have hagain : (save s.graph files' path).2 = true := save_again (save_of_persist h hpath)
  have hpersist : s.persist files' = ((save s.graph files' path).1, .ok ()) := by
    simp only [persist, hpath, hagain, if_true]
  exact ⟨_, hpersist, by rw [persist_bytes? hpersist hpath, persist_bytes? h hpath]⟩

/-- Opening the file of a graph that was persisted gives the same store. -/
theorem ofFile_of_persist (hs : Reachable s.graph) (h : s.persist files = (files', .ok ()))
    (hpath : s.path = some path) : ofFile files' path = .ok s := by
  rw [ofFile_of_bytes? hs (persist_bytes? h hpath), ← hpath]

end StoredGraph

/-- What a store may be told to do to its graph, or asked about it. -/
inductive Request where
  | apply (tx : Transaction)
  | deleteAll
  | node (k : NodeKey)
  | nodesOfKind (k : NodeKind)
  | neighbors (k : NodeKey) (r : RelationKind) (d : Direction)
  | degree (k : NodeKey)
  | mostConnected (k : NodeKind) (limit : Nat)
  | counts
  | traverse

inductive Answer where
  | written (result : Except GraphError WriteSummary)
  | deleted (result : Except GraphError Unit)
  | node (n : Option Node)
  | nodes (ns : List Node)
  | degree (result : Except GraphError Nat)
  | ranked (ns : List (Node × Nat))
  | counts (c : Counts)
  | rows (rs : List TraversalRow)

namespace StoredGraph

/-- The store after a request, and its answer. -/
def respond (s : StoredGraph) : Request → StoredGraph × Answer
  | .apply tx =>
    let (g, result) := Store.memory.apply s.graph tx
    ({ s with graph := g }, .written result)
  | .deleteAll =>
    match Store.memory.deleteAll s.graph with
    | .ok g => ({ s with graph := g }, .deleted (.ok ()))
    | .error e => (s, .deleted (.error e))
  | .node k => (s, .node (s.graph.node? k))
  | .nodesOfKind k => (s, .nodes (s.graph.nodesOfKind k))
  | .neighbors k r d => (s, .nodes (s.graph.neighbors k r d))
  | .degree k => (s, .degree (s.graph.degree k))
  | .mostConnected k limit => (s, .ranked (s.graph.mostConnected k limit))
  | .counts => (s, .counts s.graph.counts)
  | .traverse => (s, .rows s.graph.traverse)

/-- The store after some requests. -/
def after (s : StoredGraph) (qs : List Request) : StoredGraph :=
  qs.foldl (fun s q => (s.respond q).1) s

def answers (s : StoredGraph) : List Request → List Answer
  | [] => []
  | q :: qs => (s.respond q).2 :: (s.respond q).1.answers qs

variable {s : StoredGraph}

theorem answers_append (s : StoredGraph) (qs ps : List Request) :
    s.answers (qs ++ ps) = s.answers qs ++ (s.after qs).answers ps := by
  induction qs generalizing s with
  | nil => rfl
  | cons q qs ih =>
    rw [List.cons_append, answers, answers, ih, List.cons_append]
    rfl

private theorem path_respond (s : StoredGraph) (q : Request) : (s.respond q).1.path = s.path := by
  cases q <;> rfl

private theorem reachable_respond (h : Reachable s.graph) (q : Request) :
    Reachable (s.respond q).1.graph := by
  cases q with
  | apply tx => exact h.apply tx
  | deleteAll => exact reachable_empty
  | _ => exact h

private theorem path_after (s : StoredGraph) (qs : List Request) : (s.after qs).path = s.path := by
  induction qs generalizing s with
  | nil => rfl
  | cons q qs ih => exact (ih (s.respond q).1).trans (path_respond s q)

private theorem reachable_after (h : Reachable s.graph) (qs : List Request) :
    Reachable (s.after qs).graph := by
  induction qs generalizing s with
  | nil => exact h
  | cons q qs ih => exact ih (reachable_respond h q)

end StoredGraph

/-- At any point of any run of requests, a store that is persisted and opened again goes on as if
nothing had happened: its nodes and relationships are the same in the same order, no later answer
differs, and persisting once more writes the same file. -/
theorem reopening_is_invisible {x : Session} (hx : x.Begins) (os : List Operation) {path : String}
    (hpath : (x.run os).stored.path = some path) (qs ps : List Request) {files files' : Files}
    (hpersist : ((x.run os).stored.after qs).persist files = (files', .ok ())) :
    let s := (x.run os).stored
    ∃ s', StoredGraph.ofFile files' path = .ok s' ∧
      s'.graph.nodes = (s.after qs).graph.nodes ∧
      s'.graph.relationships = (s.after qs).graph.relationships ∧
      s.answers qs ++ s'.answers ps = s.answers (qs ++ ps) ∧
      ∃ files'', s'.persist files' = (files'', .ok ()) ∧
        files''.bytes? path = files'.bytes? path := by
  intro s
  have hreach : Reachable (s.after qs).graph := StoredGraph.reachable_after ⟨x, os, hx, rfl⟩ qs
  have hbound : (s.after qs).path = some path := (StoredGraph.path_after s qs).trans hpath
  have hopen : StoredGraph.ofFile files' path = .ok (s.after qs) :=
    StoredGraph.ofFile_of_persist hreach hpersist hbound
  have hanswers : s.answers qs ++ (s.after qs).answers ps = s.answers (qs ++ ps) :=
    (StoredGraph.answers_append s qs ps).symm
  exact ⟨s.after qs, hopen, rfl, rfl, hanswers, StoredGraph.persist_again hpersist hbound⟩

/-- A store on a file that others wrote, in which a node stands twice. -/
theorem reopening_is_invisible_foreign :
    let text := "[1,[[[\"Class\",\"A\"],\x7b\"é\":\"\\u0001\"\x7d],[[\"Class\",\"A\"]]]," ++
      "[[[\"Class\",\"A\"],\"EXTENDS\",[\"Class\",\"A\"]]]]"
    let files := ((Files.empty ["home"]).writeText "graph.json" text).1
    let a : Node := ⟨.ofClass "A", .ofList [("é", "\x01")]⟩
    let s : StoredGraph := ⟨⟨[a], [⟨0, .inherits, 0⟩], ⟨[(a.key, 0)]⟩⟩, some "graph.json"⟩
    let qs : List Request := [.apply [.node ⟨.ofImport "日本\n", .empty⟩]]
    let files' := ((s.after qs).persist files).1
    (StoredGraph.ofFile files "graph.json" = .ok s ∧
      (s.after qs).persist files = (files', .ok ())) ∧
      ∃ s', StoredGraph.ofFile files' "graph.json" = .ok s' ∧
        s.answers qs ++ s'.answers [.traverse, .counts] = s.answers (qs ++ [.traverse, .counts]) := by
  intro text files a s qs files'
  have hwritten : (Files.empty ["home"]).writeText "graph.json" text = (files, true) :=
    Prod.ext rfl (by decide +kernel)
  have hopen : StoredGraph.ofFile files "graph.json" = .ok s :=
    StoredGraph.ofFile_of_text? (text?_of_writeText hwritten) (by decide +kernel)
  have hpersist : (s.after qs).persist files = (files', .ok ()) := Prod.ext rfl (by decide +kernel)
  obtain ⟨s', hs', -, -, hanswers, -⟩ :=
    reopening_is_invisible (.opened hopen) [] rfl qs [.traverse, .counts] hpersist
  exact ⟨⟨hopen, hpersist⟩, s', hs', hanswers⟩

end StructureGraph.Graph
