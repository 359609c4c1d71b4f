import StructureGraph.Proofs.Ingestion

namespace StructureGraph

open StructureGraph.Graph

namespace Graph.Store

variable {σ α : Type} {s : Store σ} {state : σ} {held : σ → α}

/-- The state after transactions, whatever became of them. -/
def after (s : Store σ) (state : σ) (txs : List Transaction) : σ :=
  txs.foldl (fun state tx => (s.apply state tx).1) state

/-- Whatever transactions were tried before, one that is refused leaves what is held as it was. The
rest of the state, such as whether the store is in reach, may change with it. -/
def RefusesWithoutTrace (s : Store σ) (held : σ → α) (state : σ) : Prop :=
  ∀ txs tx e, (s.apply (s.after state txs) tx).2 = .error e →
    held (s.apply (s.after state txs) tx).1 = held (s.after state txs)

theorem RefusesWithoutTrace.apply (h : s.RefusesWithoutTrace held state) (tx : Transaction) :
    s.RefusesWithoutTrace held (s.apply state tx).1 :=
  fun txs => h (tx :: txs)

private theorem integrity_after {g : PropertyGraph} (h : g.Integrity) (txs : List Transaction) :
    (memory.after g txs).Integrity := by
  induction txs generalizing g with
  | nil => exact h
  | cons tx txs ih => exact ih (h.apply tx)

private theorem refusesWithoutTrace_memory {g : PropertyGraph} (h : g.Integrity) :
    memory.RefusesWithoutTrace id g :=
  fun txs _ _ he => PropertyGraph.apply_of_error (integrity_after h txs) he

/-- Going out of reach changes nothing that is held. -/
theorem RefusesWithoutTrace.limited (h : s.RefusesWithoutTrace held state) (n : Nat) :
    s.limited.RefusesWithoutTrace (fun x => held x.2) (n, state) := by
  intro txs
  induction txs generalizing n state with
  | nil =>
    intro tx e he
    cases n with
    | zero => rfl
    | succ n => exact h [] tx e he
  | cons tx txs ih =>
    cases n with
    | zero => exact ih h 0
    | succ n => exact ih (h.apply tx) n

end Graph.Store

/-- A fact that was tried, with what the store said. -/
structure Attempt where
  fact : Fact
  result : Except GraphError WriteSummary
  deriving DecidableEq, Repr

namespace Attempt

/-- The batch ends here, since the store cannot be used any more or no failure is to be passed over. -/
def stops (mode : IngestMode) (a : Attempt) : Bool :=
  match a.result with
  | .ok _ => false
  | .error e => e.isConnectivity || mode = .failFast

def summary? (a : Attempt) : Option WriteSummary := a.result.toOption

/-- The fact, if it was written. -/
def written? (a : Attempt) : Option Fact := a.summary?.map fun _ => a.fact

/-- How the fact is reported, if it was refused. -/
def failure? (a : Attempt) : Option (Fact × IngestError) :=
  match a.result with
  | .ok _ => none
  | .error e => some (a.fact, .write a.fact e)

private theorem length_summaries_add_failures (as : List Attempt) :
    (as.filterMap summary?).length + (as.filterMap failure?).length = as.length := by
  induction as with
  | nil => rfl
  | cons a as ih =>
    obtain ⟨f, _ | _⟩ := a <;>
      simp [summary?, failure?, Except.toOption, List.filterMap_cons] <;> omega

end Attempt

theorem WriteSummary.foldl_add (summaries : List WriteSummary) (start : WriteSummary) :
    summaries.foldl .add start =
      ⟨start.nodesCreated + (summaries.map WriteSummary.nodesCreated).sum,
        start.relationshipsCreated + (summaries.map WriteSummary.relationshipsCreated).sum⟩ := by
  induction summaries generalizing start with
  | nil => simp
  | cons summary summaries ih => simp [ih, WriteSummary.add, Nat.add_assoc]

namespace IngestReport

/-- Each attempt is in the report, as written or as failed. -/
structure Accounts (as : List Attempt) (report : IngestReport) : Prop where
  facts_applied : report.factsApplied + report.failures.length = as.length
  failures : report.failures = as.filterMap Attempt.failure?
  nodes_created : report.created.nodesCreated =
    ((as.filterMap Attempt.summary?).map WriteSummary.nodesCreated).sum
  relationships_created : report.created.relationshipsCreated =
    ((as.filterMap Attempt.summary?).map WriteSummary.relationshipsCreated).sum

/-- A report that goes on with attempts that do not end the batch. -/
def including (r : IngestReport) (as : List Attempt) : IngestReport where
  factsApplied := r.factsApplied + (as.filterMap Attempt.summary?).length
  created := (as.filterMap Attempt.summary?).foldl .add r.created
  failures := r.failures ++ as.filterMap Attempt.failure?

theorem including_nil (r : IngestReport) : r.including [] = r := by
  simp [including]

private theorem including_written (r : IngestReport) (f : Fact) (summary : WriteSummary)
    (as : List Attempt) :
    r.including (⟨f, .ok summary⟩ :: as) = (r.record summary).including as := by
  simp [including, record, Attempt.summary?, Attempt.failure?, Except.toOption,
    List.filterMap_cons]
  omega

private theorem including_refused (r : IngestReport) (f : Fact) (e : GraphError) (as : List Attempt) :
    r.including (⟨f, .error e⟩ :: as) = (r.recordFailure f (.write f e)).including as := by
  simp [including, recordFailure, Attempt.summary?, Attempt.failure?, Except.toOption,
    List.filterMap_cons]

private theorem accounts_including (as : List Attempt) : Accounts as (empty.including as) where
  facts_applied := by
    simpa [including, empty] using Attempt.length_summaries_add_failures as
  failures := rfl
  nodes_created := by simp [including, empty, WriteSummary.foldl_add, WriteSummary.empty]
  relationships_created := by simp [including, empty, WriteSummary.foldl_add, WriteSummary.empty]

end IngestReport

namespace Graph.Store

variable {σ α : Type} {s : Store σ} {k : MethodKeying} {mode : IngestMode} {state : σ} {held : σ → α}
  {f : Fact} {fs : List Fact}

/-- Each of the facts with what the store says, when all of them are tried one after the other. -/
def attempts (s : Store σ) (k : MethodKeying) : σ → List Fact → List Attempt
  | _, [] => []
  | state, f :: fs =>
    ⟨f, (s.apply state (f.transaction k)).2⟩ ::
      s.attempts k (s.apply state (f.transaction k)).1 fs

/-- The state after the attempts. -/
def afterFacts (s : Store σ) (k : MethodKeying) (state : σ) (fs : List Fact) : σ :=
  s.after state (fs.map (·.transaction k))

theorem afterFacts_cons : s.afterFacts k state (f :: fs) =
    s.afterFacts k (s.apply state (f.transaction k)).1 fs := rfl

private theorem afterFacts_concat : s.afterFacts k state (fs ++ [f]) =
    (s.apply (s.afterFacts k state fs) (f.transaction k)).1 := by
  simp [afterFacts, after]

private theorem map_fact_attempts (s : Store σ) (k : MethodKeying) (state : σ) (fs : List Fact) :
    (s.attempts k state fs).map Attempt.fact = fs := by
  induction fs generalizing state with
  | nil => rfl
  | cons f fs ih => simp [attempts, ih]

/-- Up to one of the attempts, the facts are those before it and its own. -/
theorem exists_of_attempts_eq {before after : List Attempt} {a : Attempt}
    (h : s.attempts k state fs = before ++ a :: after) :
    ∃ gs hs, fs = gs ++ a.fact :: hs ∧ s.attempts k state gs = before ∧
      a.result = (s.apply (s.afterFacts k state gs) (a.fact.transaction k)).2 := by
  induction before generalizing state fs with
  | nil =>
    cases fs with
    | nil => cases h
    | cons f fs =>
      obtain ⟨rfl, -⟩ := List.cons.inj h
      exact ⟨[], fs, rfl, rfl, rfl⟩
  | cons b before ih =>
    cases fs with
    | nil => cases h
    | cons f fs =>
      obtain ⟨rfl, htail⟩ := List.cons.inj h
      obtain ⟨gs, hs, rfl, hbefore, hresult⟩ := ih htail
      exact ⟨f :: gs, hs, rfl, by rw [attempts, hbefore], hresult⟩

private theorem ingest_eq (s : Store σ) (k : MethodKeying) (state : σ) (f : Fact) :
    s.ingest k state f =
      ((s.apply state (f.transaction k)).1,
        (s.apply state (f.transaction k)).2.mapError (.ofStore f)) := rfl

/-- A fact that ends the batch ends it at once, whatever follows. -/
theorem ingestFrom_of_stops {e : GraphError} (report : IngestReport) (gs : List Fact)
    (he : (s.apply state (f.transaction k)).2 = .error e)
    (hstops : Attempt.stops mode ⟨f, .error e⟩ = true) :
    s.ingestFrom k mode report state (f :: gs) =
      ((s.apply state (f.transaction k)).1, .error (.ofStore f e)) := by
  have hends : ((IngestError.ofStore f e).isFatal || decide (mode = .failFast)) = true := by
    rwa [IngestError.isFatal_ofStore]
  simp only [ingestFrom, ingest_eq, he, Except.mapError, hends, if_true]

/-- Facts that do not end the batch are recorded, and it goes on from where they lead. -/
theorem ingestFrom_append (h : ∀ a ∈ s.attempts k state fs, a.stops mode = false) (report : IngestReport)
    (gs : List Fact) :
    s.ingestFrom k mode report state (fs ++ gs) =
      s.ingestFrom k mode (report.including (s.attempts k state fs)) (s.afterFacts k state fs) gs := by
  induction fs generalizing report state with
  | nil => rw [attempts, IngestReport.including_nil]; rfl
  | cons f fs ih =>
    obtain ⟨hf, hfs⟩ := List.forall_mem_cons.mp h
    rw [List.cons_append, ingestFrom, attempts, afterFacts_cons, ingest_eq]
    cases hresult : (s.apply state (f.transaction k)).2 with
    | ok summary =>
      rw [IngestReport.including_written, ← ih hfs]
      rfl
    | error e =>
      rw [hresult] at hf
      obtain ⟨hfatal, hmode⟩ := Bool.or_eq_false_iff.mp hf
      have hwrite : IngestError.ofStore f e = .write f e := by simp [IngestError.ofStore, hfatal]
      have hgoes : ((IngestError.write f e).isFatal || decide (mode = .failFast)) = false := hmode
      rw [IngestReport.including_refused, ← ih hfs]
      simp only [Except.mapError, hwrite, hgoes, Bool.false_eq_true, if_false]

/-- One thing that is held becomes another by the transactions of these facts, all of which are made. -/
inductive Makes (s : Store σ) (k : MethodKeying) (held : σ → α) : α → List Fact → α → Prop
  | nil (a : α) : Makes s k held a [] a
  | cons {state : σ} {f : Fact} {fs : List Fact} {summary : WriteSummary} {b : α} :
    (s.apply state (f.transaction k)).2 = .ok summary →
      Makes s k held (held (s.apply state (f.transaction k)).1) fs b →
      Makes s k held (held state) (f :: fs) b

/-- Where transactions have the same effect whenever the same is held, the facts alone decide. -/
theorem Makes.eq_foldl {a b : α} {effect : α → Transaction → α}
    (heffect : ∀ state tx summary, (s.apply state tx).2 = .ok summary →
      held (s.apply state tx).1 = effect (held state) tx)
    (h : s.Makes k held a fs b) : b = fs.foldl (fun a f => effect a (f.transaction k)) a := by
  induction h with
  | nil a => rfl
  | cons hmade _ ih => rw [ih, heffect _ _ _ hmade, List.foldl_cons]

theorem RefusesWithoutTrace.makes (h : s.RefusesWithoutTrace held state) (k : MethodKeying)
    (fs : List Fact) :
    s.Makes k held (held state) ((s.attempts k state fs).filterMap Attempt.written?)
      (held (s.afterFacts k state fs)) := by
  induction fs generalizing state with
  | nil => exact .nil _
  | cons f fs ih =>
    have hrest := ih (h.apply (f.transaction k))
    rw [attempts, afterFacts_cons]
    cases hresult : (s.apply state (f.transaction k)).2 with
    | ok summary => exact .cons hresult hrest
    | error e =>
      have hsame : held (s.apply state (f.transaction k)).1 = held state := h [] _ _ hresult
      rw [hsame] at hrest
      exact hrest

/-- A batch ends at the first fact for whose failure it is to end, or not at all. In the first case the
error is that of the fact, later facts are not tried, and the earlier ones that were written are all
that changed what is held. In the second case each fact is in the report, as written or as failed. -/
theorem ingestAll_stops_at_first (h : s.RefusesWithoutTrace held state) (k : MethodKeying)
    (mode : IngestMode) (fs : List Fact) :
    (s.attempts k state fs).map Attempt.fact = fs ∧
      ((∀ a ∈ s.attempts k state fs, a.stops mode = false) →
        ∃ report, s.ingestAll k mode state fs = (s.afterFacts k state fs, .ok report) ∧
          report.Accounts (s.attempts k state fs) ∧
          s.Makes k held (held state) ((s.attempts k state fs).filterMap Attempt.written?)
            (held (s.afterFacts k state fs))) ∧
      ∀ before a after e, s.attempts k state fs = before ++ a :: after →
        (∀ b ∈ before, b.stops mode = false) → a.stops mode = true → a.result = .error e →
        ∃ state', state' = s.afterFacts k state (before.map Attempt.fact ++ [a.fact]) ∧
          s.ingestAll k mode state fs =
            (state', .error (if e.isConnectivity then .connectivity e else .write a.fact e)) ∧
          (∀ others, s.ingestAll k mode state (before.map Attempt.fact ++ a.fact :: others) =
            s.ingestAll k mode state fs) ∧
          s.Makes k held (held state) (before.filterMap Attempt.written?) (held state') := by
  refine ⟨map_fact_attempts s k state fs, fun hgoes => ?_,
    fun before a after e hattempts hgoes hstops he => ?_⟩
  · refine ⟨IngestReport.empty.including (s.attempts k state fs), ?_,
      IngestReport.accounts_including _, h.makes k fs⟩
    have hrun := ingestFrom_append hgoes .empty []
    rwa [List.append_nil] at hrun
  · obtain ⟨gs, hs, rfl, rfl, hresult⟩ := exists_of_attempts_eq hattempts
    obtain ⟨f, result⟩ := a
    obtain rfl : result = .error e := he
    have hrun (others : List Fact) : s.ingestAll k mode state (gs ++ f :: others) =
        (s.afterFacts k state (gs ++ [f]), .error (.ofStore f e)) := by
      rw [ingestAll, ingestFrom_append hgoes, ingestFrom_of_stops _ _ hresult.symm hstops,
        afterFacts_concat]
    have hsame : held (s.afterFacts k state (gs ++ [f])) = held (s.afterFacts k state gs) := by
      rw [afterFacts_concat]
      exact h _ _ _ hresult.symm
    rw [map_fact_attempts]
    refine ⟨_, rfl, hrun hs, fun others => (hrun others).trans (hrun hs).symm, ?_⟩
    rw [hsame]
    exact h.makes k gs

/-- A store that goes out of reach after three transactions, of which one was refused. -/
theorem ingestAll_stops_at_first_out_of_reach :
    let s := memory.limited
    let fs : List Fact := ["A", " ", "B", "C", "D"].map .classDeclared
    let before : List Attempt :=
      [⟨.classDeclared "A", .ok ⟨1, 0⟩⟩, ⟨.classDeclared " ", .error (.invalidKey (.ofClass " "))⟩,
        ⟨.classDeclared "B", .ok ⟨1, 0⟩⟩]
    let refused : Fact → Attempt := fun f => ⟨f, .error offline⟩
    (s.RefusesWithoutTrace Prod.snd (3, PropertyGraph.empty) ∧
      s.attempts .bareName (3, .empty) fs =
        before ++ refused (.classDeclared "C") :: [refused (.classDeclared "D")] ∧
      ∀ b ∈ before, b.stops .bestEffort = false) ∧
      ∃ state', s.ingestAll .bareName .bestEffort (3, .empty) fs =
          (state', .error (.connectivity offline)) ∧
        state'.2.keys = [.ofClass "A", .ofClass "B"] := by
  intro s fs before refused
  have hrefuses : s.RefusesWithoutTrace Prod.snd (3, PropertyGraph.empty) :=
    (refusesWithoutTrace_memory PropertyGraph.integrity_empty).limited 3
  have hattempts : s.attempts .bareName (3, .empty) fs =
      before ++ refused (.classDeclared "C") :: [refused (.classDeclared "D")] := by decide +kernel
  have hbefore : ∀ b ∈ before, b.stops .bestEffort = false := by decide +kernel
  obtain ⟨state', -, hrun, -, hmakes⟩ :=
    (ingestAll_stops_at_first hrefuses .bareName .bestEffort fs).2.2 _ _ _ _ hattempts hbefore
      rfl rfl
  let effect (g : PropertyGraph) (tx : Transaction) : PropertyGraph := (g.apply tx).1
  have heffect : ∀ state tx summary, (s.apply state tx).2 = .ok summary →
      (s.apply state tx).1.2 = effect state.2 tx := by
    intro state tx summary hmade
    obtain ⟨_ | n, g⟩ := state
    · cases hmade
    · rfl
  refine ⟨⟨hrefuses, hattempts, hbefore⟩, state', hrun, ?_⟩
  rw [hmakes.eq_foldl heffect]
  decide +kernel

end Graph.Store

end StructureGraph
