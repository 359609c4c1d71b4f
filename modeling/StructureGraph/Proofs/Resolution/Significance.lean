import StructureGraph.Proofs.Resolution.Batches
import StructureGraph.Resolution.Significance

namespace StructureGraph.Resolution

open StructureGraph.Java

variable {signature : String}

namespace CallCounts

theorem mem_names_foldl_add (es : List (String × Nat)) (c : CallCounts) :
    signature ∈ (es.foldl (fun c e => c.add e.1 e.2) c).names ↔
      signature ∈ c.names ∨ signature ∈ es.map Prod.fst := by
  induction es generalizing c with
  | nil => simp
  | cons e es ih =>
    rw [List.foldl_cons, ih, mem_names_add, List.map_cons, List.mem_cons, or_assoc,
      or_left_comm, eq_comm]

private theorem mem_names_merge (a b : CallCounts) :
    signature ∈ (a.merge b).names ↔ signature ∈ a.names ∨ signature ∈ b.names :=
  mem_names_foldl_add b.entries a

private theorem mem_names_foldl_merge (cs : List CallCounts) (c : CallCounts) :
    signature ∈ (cs.foldl merge c).names ↔
      signature ∈ c.names ∨ ∃ c' ∈ cs, signature ∈ c'.names := by
  induction cs generalizing c with
  | nil => simp
  | cons c' cs ih => rw [List.foldl_cons, ih, mem_names_merge, or_assoc, List.exists_mem_cons_iff]

theorem mem_names_mergeAll (cs : List CallCounts) :
    signature ∈ (mergeAll cs).names ↔ ∃ c ∈ cs, signature ∈ c.names := by
  rw [mergeAll, mem_names_foldl_merge]
  exact or_iff_right (List.not_mem_nil)

end CallCounts

theorem inRange_zero : (0.0 : Float) ≤ 0.0 ∧ (0.0 : Float) ≤ 1.0 :=
  ⟨by decide +kernel, by decide +kernel⟩

/-- No part of the whole. -/
def Share.zero : Share := ⟨0.0, inRange_zero⟩

theorem significant_zero (c : CallCounts) : significant .zero c = c := by
  have hzero : Share.zero.value ≤ 0.0 := by decide +kernel
  exact if_pos hzero

private theorem mem_names_of_filter {c : CallCounts} {p : String × Nat → Bool}
    (h : signature ∈ (c.filter p).names) : signature ∈ c.names := by
  obtain ⟨e, he, rfl⟩ := List.mem_map.mp h
  exact List.mem_map_of_mem (List.mem_of_mem_filter he)

private theorem mem_names_of_significant {dropped : Share} {c : CallCounts}
    (h : signature ∈ (significant dropped c).names) : signature ∈ c.names := by
  rw [significant] at h
  split at h
  · exact h
  · exact mem_names_of_filter h

private theorem exists_site_of_mem_names {find : String → Option FoundType} {prefixes : List String}
    {u : CompilationUnit} (h : signature ∈ ((tallyUnit prefixes u).run find).counts.names) :
    isStandard prefixes signature = false ∧
      ∃ x ∈ sites u, (x.1.resolve x.2).run find = .resolved signature := by
  obtain ⟨hstandard, hcount⟩ := ((accounts_tallyUnit find prefixes u).mem_names signature).mp h
  exact ⟨hstandard, List.mem_map.mp (List.count_pos_iff.mp hcount)⟩

/-- A significant method is one that a call in some of the files was resolved to. -/
theorem exists_call_of_significant {files : Files} {prefixes : List String} {root : String}
    {sources : List String} {dropped : Share}
    (h : signature ∈ (process dropped (analyze files prefixes root sources)).counts.names) :
    isStandard prefixes signature = false ∧ ∃ path ∈ sources, ∃ u, readUnit files path = .ok u ∧
      ∃ x ∈ sites u, (x.1.resolve x.2).run (findType? files (originsOf (scope files root sources))) =
        .resolved signature := by
  obtain ⟨c, hc, hname⟩ := (CallCounts.mem_names_mergeAll _).mp (mem_names_of_significant h)
  obtain ⟨t, ht, rfl⟩ := List.mem_map.mp hc
  rw [analyze_eq_map] at ht
  obtain ⟨path, hpath, rfl⟩ := List.mem_map.mp ht
  rw [run_tallyFile] at hname
  split at hname
  · rename_i u hu
    obtain ⟨hstandard, hsite⟩ := exists_site_of_mem_names hname
    exact ⟨hstandard, path, hpath, u, hu, hsite⟩
  · exact absurd hname (List.not_mem_nil)

/-- A file is tallied with an error if it gives no unit. -/
theorem isSome_error_run_tallyFile (find : String → Option FoundType) (files : Files)
    (prefixes : List String) (path : String) :
    ((tallyFile files prefixes path).run find).error.isSome =
      !(readUnit files path).isOk := by
  rw [run_tallyFile]
  cases readUnit files path <;> rfl

end StructureGraph.Resolution
