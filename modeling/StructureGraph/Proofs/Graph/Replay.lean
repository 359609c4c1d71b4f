import StructureGraph.Proofs.Graph.Persistence

namespace StructureGraph.Graph

open PropertyGraph

namespace Session

variable {x : Session} {o : Operation} {os : List Operation}

private theorem isInvariant_reachable : IsInvariant Reachable where
  empty := reachable_empty
  load hload := by
    have hopen := StoredGraph.ofFile_eq_ok_iff.mpr ⟨_, hload, rfl⟩
    exact ⟨⟨_, _, []⟩, [], .opened hopen, rfl⟩
  apply := Reachable.apply

/-- Each operation is a transaction, which may be refused, or persists the graph, perhaps to open its
file again, or is done to the files from outside. -/
inductive Appends : Session → List Operation → Prop
  | nil {x : Session} : Appends x []
  | apply {x : Session} {tx : Transaction} {os : List Operation} :
    Appends (x.step (.apply tx)) os → Appends x (.apply tx :: os)
  | persist {x : Session} {os : List Operation} :
    Appends (x.step .persist) os → Appends x (.persist :: os)
  | renew {x : Session} {path : String} {os : List Operation} :
    x.stored.path = some path → (x.stored.persist x.files).2 = .ok () →
      Appends ((x.step .persist).step (.reopen path)) os →
        Appends x (.persist :: .reopen path :: os)
  | outside {x : Session} {files : Files} {os : List Operation} :
    Appends (x.step (.outside files)) os → Appends x (.outside files :: os)

private theorem stored_step_persist (x : Session) : (x.step .persist).stored = x.stored := by
  simp only [step]
  split <;> rfl

private theorem stored_step_reopen {path : String} (hx : Reachable x.stored.graph)
    (hpath : x.stored.path = some path) (h : (x.stored.persist x.files).2 = .ok ()) :
    ((x.step .persist).step (.reopen path)).stored = x.stored := by
  have hpersist : x.stored.persist x.files = ((x.stored.persist x.files).1, .ok ()) :=
    Prod.ext rfl h
  have hfiles : (x.step .persist).files = (x.stored.persist x.files).1 := by
    simp only [step]
    rw [hpersist]
  have hopen : StoredGraph.ofFile (x.step .persist).files path = .ok x.stored := by
    rw [hfiles]
    exact StoredGraph.ofFile_of_persist hx hpersist hpath
  rw [step.eq_def]
  simp only [hopen]

/-- The graph while operations are made, after as many of them as are given. -/
def graphAt (x : Session) (os : List Operation) (i : Nat) : PropertyGraph :=
  (x.run (os.take i)).stored.graph

/-- From every moment to every later one the graph has grown. -/
def GrowsAlong (x : Session) (os : List Operation) : Prop :=
  ∀ i j, i ≤ j → Grows (x.graphAt os i) (x.graphAt os j)

theorem growsAlong_nil : x.GrowsAlong [] := by
  intro i j _
  rw [graphAt, graphAt, List.take_nil, List.take_nil]
  exact .refl

theorem growsAlong_cons (ho : Grows x.stored.graph (x.step o).stored.graph)
    (h : (x.step o).GrowsAlong os) : x.GrowsAlong (o :: os) := by
  intro i j hij
  cases i with
  | zero =>
    cases j with
    | zero => exact .refl
    | succ j => exact ho.trans (h 0 j (Nat.zero_le j))
  | succ i =>
    cases j with
    | zero => omega
    | succ j => exact h i j (Nat.le_of_succ_le_succ hij)

private theorem Appends.growsAlong (h : x.Appends os) (hx : Reachable x.stored.graph) :
    x.GrowsAlong os := by
  induction h with
  | nil => exact growsAlong_nil
  | apply _ ih => exact growsAlong_cons (grows_apply _ _) (ih (isInvariant_reachable.step hx _))
  | persist _ ih =>
    refine growsAlong_cons ?_ (ih (isInvariant_reachable.step hx _))
    rw [stored_step_persist]
    exact .refl
  | renew hpath hpersist _ ih =>
    have hreopened := ih (isInvariant_reachable.step (isInvariant_reachable.step hx _) _)
    refine growsAlong_cons ?_ (growsAlong_cons ?_ hreopened)
    · rw [stored_step_persist]
      exact .refl
    · rw [stored_step_reopen hx hpath hpersist, stored_step_persist]
      exact .refl
  | outside _ ih => exact growsAlong_cons .refl (ih (isInvariant_reachable.step hx _))

/-- A transaction that was made makes each of its nodes with the properties that the first write of
its key gives, unless the node was there. From then on everything that is there stays as it is, while
more is added, and the same transaction succeeds at every moment, creates nothing and changes
nothing. -/
theorem writes_are_append_only (hx : x.Begins) (os : List Operation) {tx : Transaction}
    {s : WriteSummary} (htx : ((x.run os).stored.graph.apply tx).2 = .ok s)
    {later : List Operation} (hlater : ((x.run os).step (.apply tx)).Appends later) :
    let g := ((x.run os).step (.apply tx)).graphAt later
    (∀ k, (g 0).node? k = ((x.run os).stored.graph.node? k).or (firstMerged? k tx)) ∧
      (∀ i j, i ≤ j → Extends (g i) (g j)) ∧
      ∀ i, ∃ noop, noop.isNoop ∧ (g i).apply tx = (g i, .ok noop) := by
  intro g
  have hbefore : Reachable (x.run os).stored.graph := ⟨x, os, hx, rfl⟩
  have hfirst : (x.run os).stored.graph.apply tx = (g 0, .ok s) := Prod.ext rfl htx
  have hafter : Reachable (g 0) := hbefore.apply tx
  have hgrows : ∀ i j, i ≤ j → Grows (g i) (g j) := hlater.growsAlong hafter
  have hintegrity : ∀ i, (g i).Integrity := fun i => isInvariant_integrity.run hafter.integrity (later.take i)
  refine ⟨(apply_effect hbefore.integrity hfirst).node?, fun i j hij => ?_, fun i => ?_⟩
  · exact (hgrows i j hij).extends (hintegrity i) (hintegrity j)
  · have hagain := apply_again hbefore.integrity hfirst (hgrows 0 i (Nat.zero_le i)) (hintegrity i)
    exact ⟨.empty, rfl, hagain⟩

/-- A refused transaction, a file that is opened again, and a write of other properties in between. -/
theorem writes_are_append_only_renewed :
    let a : NodeKey := .ofClass "A"
    let x : Session := ⟨.empty ["home"], ⟨.empty, some "graph.json"⟩, []⟩
    let tx : Transaction := [.node ⟨a, .ofList [("name", "first")]⟩, .relationship ⟨a, .inherits, a⟩]
    let later : List Operation :=
      [.apply [.node ⟨.ofClass " ", .empty⟩], .persist, .reopen "graph.json",
        .apply [.node ⟨a, .ofList [("name", "second")]⟩, .node ⟨.ofMethod "m", .empty⟩]]
    let g := (x.step (.apply tx)).graphAt later
    (x.Begins ∧ (x.stored.graph.apply tx).2 = .ok ⟨1, 1⟩ ∧ (x.step (.apply tx)).Appends later) ∧
      Extends (g 0) (g 4) ∧ ∃ noop, noop.isNoop ∧ (g 4).apply tx = (g 4, .ok noop) := by
  intro a x tx later g
  have hload : StoredGraph.load x.files "graph.json" = .ok .empty := by decide +kernel
  have hx : x.Begins := .opened (StoredGraph.ofFile_eq_ok_iff.mpr ⟨_, hload, rfl⟩)
  have htx : (x.stored.graph.apply tx).2 = .ok ⟨1, 1⟩ := by decide +kernel
  have hlater : (x.step (.apply tx)).Appends later :=
    .apply (.renew rfl (by decide +kernel) (.apply .nil))
  obtain ⟨-, hextends, hagain⟩ := writes_are_append_only hx [] htx hlater
  exact ⟨⟨hx, htx, hlater⟩, hextends 0 4 (by omega), hagain 4⟩

end Session

end StructureGraph.Graph
