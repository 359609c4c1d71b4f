import StructureGraph.Proofs.Resolution.Significance
import StructureGraph.Proofs.Table

namespace StructureGraph.Resolution

variable {signature : String}

namespace CallCounts

/-- Tables with the same signatures and the same counts are the same. -/
theorem eq_of_count {a b : CallCounts} (hnames : ∀ signature, signature ∈ a.names ↔ signature ∈ b.names)
    (hcount : ∀ signature, a.count signature = b.count signature) : a = b := by
  refine Table.eq_of_get? fun signature => ?_
  have hname := hnames signature
  have hvalue := hcount signature
  rw [Table.mem_names_iff, Table.mem_names_iff] at hname
  rw [count, count] at hvalue
  cases ha : a.get? signature with
  | none =>
    rw [ha] at hname
    exact (Option.not_isSome_iff_eq_none.mp fun hb => Bool.noConfusion (hname.mpr hb)).symm
  | some n =>
    rw [ha] at hname hvalue
    obtain ⟨m, hm⟩ := Option.isSome_iff_exists.mp (hname.mp rfl)
    rw [hm] at hvalue ⊢
    exact congrArg some hvalue

/-- What an entry adds to the count of a signature. -/
def contribution (signature : String) (e : String × Nat) : Nat := if e.1 = signature then e.2 else 0

private theorem sum_contribution_of_sorted {es : List (String × Nat)} (h : es.Pairwise (·.1 < ·.1))
    (signature : String) :
    (es.map (contribution signature)).sum = ((es.find? (·.1 == signature)).map Prod.snd).getD 0 := by
  induction es with
  | nil => rfl
  | cons e es ih =>
    obtain ⟨he, hes⟩ := List.pairwise_cons.mp h
    rw [List.map_cons, List.sum_cons, ih hes, contribution]
    split
    · rename_i heq
      have hnone : es.find? (·.1 == signature) = none := by
        rw [List.find?_eq_none]
        intro d hd hname
        exact String.lt_irrefl d.1 (by simpa [heq, beq_iff_eq.mp hname] using he d hd)
      rw [hnone, List.find?_cons_of_pos (by simpa using heq)]
      rfl
    · rename_i hne
      rw [List.find?_cons_of_neg (by simpa using hne), Nat.zero_add]

private theorem sum_contribution_entries (c : CallCounts) (signature : String) :
    (c.entries.map (contribution signature)).sum = c.count signature :=
  sum_contribution_of_sorted c.sorted signature

theorem count_foldl_add (es : List (String × Nat)) (c : CallCounts) (signature : String) :
    (es.foldl (fun c e => c.add e.1 e.2) c).count signature =
      c.count signature + (es.map (contribution signature)).sum := by
  induction es generalizing c with
  | nil => rfl
  | cons e es ih =>
    rw [List.foldl_cons, ih, count_add, List.map_cons, List.sum_cons, Nat.add_assoc, contribution]

private theorem count_merge (a b : CallCounts) (signature : String) :
    (a.merge b).count signature = a.count signature + b.count signature := by
  rw [merge, count_foldl_add, sum_contribution_entries]

private theorem count_foldl_merge (cs : List CallCounts) (c : CallCounts) (signature : String) :
    (cs.foldl merge c).count signature =
      c.count signature + (cs.map (·.count signature)).sum := by
  induction cs generalizing c with
  | nil => rfl
  | cons c' cs ih =>
    rw [List.foldl_cons, ih, count_merge, List.map_cons, List.sum_cons, Nat.add_assoc]

private theorem count_mergeAll (cs : List CallCounts) (signature : String) :
    (mergeAll cs).count signature = (cs.map (·.count signature)).sum := by
  rw [mergeAll, count_foldl_merge]
  exact Nat.zero_add _

private theorem mergeAll_perm {cs cs' : List CallCounts} (h : cs.Perm cs') :
    mergeAll cs = mergeAll cs' := by
  refine eq_of_count (fun signature => ?_) fun signature => ?_
  · simp only [mem_names_mergeAll, h.mem_iff]
  · rw [count_mergeAll, count_mergeAll]
    exact (h.map _).sum_nat

/-- Tables may be merged in groups, and then what the groups gave. -/
theorem mergeAll_map_mergeAll (groups : List (List CallCounts)) :
    mergeAll (groups.map mergeAll) = mergeAll groups.flatten := by
  refine eq_of_count (fun signature => ?_) fun signature => ?_
  · simp only [mem_names_mergeAll, List.mem_map, List.mem_flatten]
    constructor
    · rintro ⟨_, ⟨group, hgroup, rfl⟩, hname⟩
      obtain ⟨c, hc, hname⟩ := (mem_names_mergeAll group).mp hname
      exact ⟨c, ⟨group, hgroup, hc⟩, hname⟩
    · rintro ⟨c, ⟨group, hgroup, hc⟩, hname⟩
      exact ⟨mergeAll group, ⟨group, hgroup, rfl⟩, (mem_names_mergeAll group).mpr ⟨c, hc, hname⟩⟩
  · have hgroup : (fun group => (mergeAll group).count signature) =
        fun group => (group.map (·.count signature)).sum :=
      funext fun group => count_mergeAll group signature
    rw [count_mergeAll, count_mergeAll, List.map_map, List.map_flatten, List.sum_flatten,
      List.map_map]
    exact congrArg (fun f => (groups.map f).sum) hgroup

end CallCounts

/-- To add up the entries of all files is to merge their tables. -/
theorem totalCounts_eq_mergeAll (ts : List FileTally) :
    totalCounts ts = CallCounts.mergeAll (ts.map fun t => t.tally.counts) := by
  rw [totalCounts, List.foldl_flatMap, CallCounts.mergeAll, List.foldl_map]
  rfl

private theorem counts_process_perm (dropped : Share) {ts ts' : List FileTally} (h : ts.Perm ts') :
    (process dropped ts).counts = (process dropped ts').counts :=
  congrArg (significant dropped) (CallCounts.mergeAll_perm (h.map _))

private theorem files_process_analyze (dropped : Share) (files : Files) (prefixes : List String)
    (root : String) (sources : List String) :
    (process dropped (analyze files prefixes root sources)).files = sources := by
  rw [process, analyze_eq_map, List.map_map]
  exact List.map_id'' (fun path => path_run_tallyFile _ files prefixes path) sources

/-- A merged table has the signatures of the given ones, each with the sum of its counts. It is the same
in whatever order they are given, and if they are merged in groups first, however they are shared out
among these. The calls of some files in all are what merging their tables gives, and what is kept where
no share is dropped. Whatever share is dropped, the order of the files makes no difference to what is
kept, and all of them are listed in their order, also those that could not be read. -/
theorem merging_adds_up :
    (∀ cs : List CallCounts,
      (∀ signature, signature ∈ (CallCounts.mergeAll cs).names ↔ ∃ c ∈ cs, signature ∈ c.names) ∧
      (∀ signature, (CallCounts.mergeAll cs).count signature = (cs.map (·.count signature)).sum) ∧
      (∀ cs', cs'.Perm cs → CallCounts.mergeAll cs' = CallCounts.mergeAll cs) ∧
      ∀ groups : List (List CallCounts), groups.flatten.Perm cs →
        CallCounts.mergeAll (groups.map CallCounts.mergeAll) = CallCounts.mergeAll cs) ∧
    (∀ files prefixes root sources,
      let tallies := analyze files prefixes root sources
      let counts := corpusCounts files prefixes root sources
      counts = CallCounts.mergeAll (tallies.map fun t => t.tally.counts) ∧
      counts = (process .zero tallies).counts ∧
      ∀ dropped, (process dropped tallies).files = sources) ∧
    ∀ dropped ts, (process dropped ts).files = ts.map FileTally.path ∧
      ∀ ts', ts'.Perm ts → (process dropped ts').counts = (process dropped ts).counts := by
  refine ⟨fun cs => ⟨fun _ => CallCounts.mem_names_mergeAll cs, CallCounts.count_mergeAll cs,
    fun _ => CallCounts.mergeAll_perm, fun groups hgroups => ?_⟩, ?_,
    fun dropped ts => ⟨rfl, fun _ => counts_process_perm dropped⟩⟩
  · rw [CallCounts.mergeAll_map_mergeAll]
    exact CallCounts.mergeAll_perm hgroups
  · intro files prefixes root sources tallies counts
    have hcounts : counts = CallCounts.mergeAll (tallies.map fun t => t.tally.counts) :=
      totalCounts_eq_mergeAll tallies
    exact ⟨hcounts, hcounts.trans (significant_zero _).symm,
      fun dropped => files_process_analyze dropped files prefixes root sources⟩

end StructureGraph.Resolution
