import StructureGraph.Proofs.Resolution.Frequency

namespace StructureGraph.Resolution

open StructureGraph.Java

variable {files : Files}

/-- Each file of a batch is tallied as it is on its own. -/
theorem tallyBatch_eq_map (prefixes : List String) (batch : List (String × Nat)) (r : Resolver) :
    tallyBatch files prefixes batch r =
      batch.map fun x => ((tallyFile files prefixes x.1).run (r.type? files), x.2) := by
  induction batch generalizing r with
  | nil => rfl
  | cons x batch ih =>
    obtain ⟨path, place⟩ := x
    obtain ⟨htally, htypes⟩ := r.pursue_spec files (tallyFile files prefixes path)
    have hstep : tallyBatch files prefixes ((path, place) :: batch) r =
        ((r.pursue files (tallyFile files prefixes path)).1, place) ::
          tallyBatch files prefixes batch (r.pursue files (tallyFile files prefixes path)).2 := rfl
    rw [hstep, htally, ih, htypes, List.map_cons]

theorem pairwise_zipIdx {β : Type} (xs : List β) : xs.zipIdx.Pairwise fun a b => a.2 < b.2 := by
  have hplaces : (xs.zipIdx.map Prod.snd).Pairwise (· < ·) := by
    rw [List.zipIdx_map_snd]
    exact List.pairwise_lt_range' 1
  exact List.pairwise_map.mp hplaces

/-- Results that carry their places are put in order, in whatever order they came. -/
theorem map_fst_mergeSort_places {β γ : Type} (f : β → γ) {xs : List β} {ys : List (β × Nat)}
    (h : ys.Perm xs.zipIdx) :
    ((ys.map fun y => (f y.1, y.2)).mergeSort fun a b => decide (a.2 ≤ b.2)).map Prod.fst =
      xs.map f := by
  let placed (y : β × Nat) : γ × Nat := (f y.1, y.2)
  let le (a b : γ × Nat) : Bool := decide (a.2 ≤ b.2)
  have hperm : ((ys.map placed).mergeSort le).Perm (xs.zipIdx.map placed) :=
    (List.mergeSort_perm _ _).trans (h.map placed)
  have hfound : ∀ a ∈ xs.zipIdx.map placed, (xs[a.2]?).map f = some a.1 := by
    intro a ha
    obtain ⟨x, hx, rfl⟩ := List.mem_map.mp ha
    rw [List.mem_zipIdx_iff_getElem?.mp hx, Option.map_some]
  have hanti : ∀ a b, a ∈ (ys.map placed).mergeSort le → b ∈ xs.zipIdx.map placed →
      le a b = true → le b a = true → a = b := by
    intro a b ha hb hab hba
    have hplace : a.2 = b.2 := Nat.le_antisymm (of_decide_eq_true hab) (of_decide_eq_true hba)
    have hvalue := (hfound a (hperm.mem_iff.mp ha)).symm.trans (hplace ▸ hfound b hb)
    exact Prod.ext (Option.some.inj hvalue) hplace
  have hleft : ((ys.map placed).mergeSort le).Pairwise (fun a b => le a b = true) :=
    List.pairwise_mergeSort (fun a b c hab hbc => by simp only [le, decide_eq_true_eq] at *; omega)
      (fun a b => by simp only [le, Bool.or_eq_true, decide_eq_true_eq]; omega) _
  have hright : (xs.zipIdx.map placed).Pairwise (fun a b => le a b = true) :=
    List.pairwise_map.mpr ((pairwise_zipIdx xs).imp fun hlt => decide_eq_true (Nat.le_of_lt hlt))
  have hsorted := List.Perm.eq_of_pairwise hanti hleft hright hperm
  have hvalues : (xs.zipIdx.map placed).map Prod.fst = xs.map f := by
    have hsplit : Prod.fst ∘ placed = f ∘ Prod.fst := rfl
    rw [List.map_map, hsplit, ← List.map_map, List.zipIdx_map_fst]
  exact (congrArg (List.map Prod.fst) hsorted).trans hvalues

/-- Files may be shared out in any way, and each worker may take its own in any order. -/
theorem tallyBatches_eq_map (prefixes directories sources : List String)
    {batches : List (List (String × Nat))} (h : batches.flatten.Perm sources.zipIdx) :
    tallyBatches files prefixes directories batches =
      sources.map fun path =>
        (tallyFile files prefixes path).run (findType? files (originsOf directories)) := by
  let tally (path : String) :=
    (tallyFile files prefixes path).run (findType? files (originsOf directories))
  have hbatch : (fun batch => tallyBatch files prefixes batch (.forScope directories)) =
      List.map fun x => (tally x.1, x.2) := by
    funext batch
    rw [tallyBatch_eq_map, Resolver.forScope, Resolver.type?_ofOrigins]
  have htallies : (batches.flatMap fun batch =>
      tallyBatch files prefixes batch (.forScope directories)) =
        batches.flatten.map fun x => (tally x.1, x.2) := by
    rw [hbatch, List.flatMap_def, List.map_flatten]
  rw [tallyBatches, htallies]
  exact map_fst_mergeSort_places tally h

theorem analyze_eq_map (files : Files) (prefixes : List String) (root : String)
    (sources : List String) :
    analyze files prefixes root sources =
      sources.map fun path => (tallyFile files prefixes path).run
        (findType? files (originsOf (scope files root sources))) := by
  refine tallyBatches_eq_map prefixes _ sources ?_
  rw [List.flatten_singleton]

/-- Whatever a resolver was used for, it answers as one that was not used, which is as a search
without any memory answers. So it makes no difference which worker tallies a file, which files the
worker tallied before, and in what order; the tallies come in the order of the files, one for each. -/
theorem memory_is_invisible (files : Files) (origins : List Origin) (uses : List Resolver.Use) :
    let fresh := Resolver.ofOrigins origins
    let used := fresh.after files uses
    (∀ name, (used.findType files name).1 = (fresh.findType files name).1 ∧
      (fresh.findType files name).1 = findType? files origins name) ∧
    (∀ u index body c, (used.pursue files (resolveAt u index body c)).1 =
      (fresh.pursue files (resolveAt u index body c)).1) ∧
    (∀ prefixes u, (used.pursue files (tallyUnit prefixes u)).1 =
      (fresh.pursue files (tallyUnit prefixes u)).1) ∧
    ∀ prefixes root sources batches, batches.flatten.Perm sources.zipIdx →
      let tallies := tallyBatches files prefixes (scope files root sources) batches
      tallies = analyze files prefixes root sources ∧
      (tallies = sources.map fun path => ((Resolver.forScope (scope files root sources)).pursue files
        (tallyFile files prefixes path)).1) ∧
      tallies.map FileTally.path = sources := by
  intro fresh used
  have htypes : used.type? files = fresh.type? files := fresh.type?_after files uses
  have hpursue {α : Type} (q : Inquiry FoundType α) :
      (used.pursue files q).1 = (fresh.pursue files q).1 := by
    rw [(used.pursue_spec files q).1, (fresh.pursue_spec files q).1, htypes]
  refine ⟨fun name => ⟨congrFun htypes name, ?_⟩, fun u index body c => hpursue _,
    fun prefixes u => hpursue _, ?_⟩
  · exact congrFun (Resolver.type?_ofOrigins files origins) name
  · intro prefixes root sources batches hbatches tallies
    let directories := scope files root sources
    have htallies : tallies = sources.map fun path =>
        (tallyFile files prefixes path).run (findType? files (originsOf directories)) :=
      tallyBatches_eq_map prefixes directories sources hbatches
    refine ⟨htallies.trans (analyze_eq_map files prefixes root sources).symm, ?_, ?_⟩
    · rw [htallies]
      exact List.map_congr_left fun path _ => (Resolver.pursue_ofOrigins files _ _).symm
    · rw [htallies, List.map_map]
      exact List.map_id'' (fun path => path_run_tallyFile _ files prefixes path) sources

/-- Two workers, of whom the one with the last file is done first. -/
theorem memory_is_invisible_two_workers :
    let files := ((((Files.empty ["home"]).writeText "A.java" "class A { void a() { B.b(); } }").1).writeText
      "B.java" "class B { static void b() {} }").1
    let sources := ["A.java", "B.java"]
    let batches := [[("B.java", 1)], [("A.java", 0)]]
    batches.flatten.Perm sources.zipIdx ∧
      tallyBatches files [] (scope files "." sources) batches = analyze files [] "." sources := by
  intro files sources batches
  have hbatches : batches.flatten.Perm sources.zipIdx := by decide
  exact ⟨hbatches, ((memory_is_invisible files [] []).2.2.2 [] "." sources batches hbatches).1⟩

end StructureGraph.Resolution
