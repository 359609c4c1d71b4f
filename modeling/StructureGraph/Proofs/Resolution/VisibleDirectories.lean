import StructureGraph.Proofs.Resolution.Scope

namespace StructureGraph.Resolution

open Files (Entry)
open Files.Path (IsName Step steps)

variable {f : Files} {root directory path : String} {names sources : List String} {ss : List Step}

/-- Names that lead from a root to a directory below it, or nowhere else, and none of which is skipped.
The name of the root itself does not matter. -/
structure IsVisible (f : Files) (root : String) (names : List String) : Prop where
  isDirectory_root : f.isDirectory root
  isDirectory : f.isDirectory (names.foldl Files.Path.join root)
  isName : ∀ n ∈ names, IsName n
  not_skipped : ∀ n ∈ names, n.toList.head? ≠ some '.' ∧ n ≠ "target"

private theorem isSkippedDirectory_eq_false_iff {n : String} :
    isSkippedDirectory n = false ↔ n.toList.head? ≠ some '.' ∧ n ≠ "target" := by
  simp [isSkippedDirectory]

theorem directoryOf?_ne_empty (h : directoryOf? path = some directory) : directory ≠ "" :=
  bne_iff_ne.mp (Option.filter_eq_some_iff.mp h).2

/-- The directory of a file is its path without the last step. -/
theorem steps_of_directoryOf? (h : directoryOf? path = some directory) :
    steps directory = (steps path).dropLast := by
  obtain ⟨step, -, hsteps⟩ := Files.Path.steps_of_parent? (Option.filter_eq_some_iff.mp h).1
    (directoryOf?_ne_empty h)
  rw [hsteps, List.dropLast_concat]

private theorem exists_directoryOf? (h : (steps path).dropLast ≠ []) : ∃ d, directoryOf? path = some d := by
  obtain ⟨parent, hparent, hne⟩ := Files.Path.exists_parent? h
  exact ⟨parent, Option.filter_eq_some_iff.mpr ⟨hparent, bne_iff_ne.mpr hne⟩⟩

private theorem mem_map_steps_directoryOf? : ss ∈ (sources.filterMap directoryOf?).map steps ↔
    ss ≠ [] ∧ ∃ path ∈ sources, ss = (steps path).dropLast := by
  simp only [List.mem_map, List.mem_filterMap]
  constructor
  · intro hexists
    obtain ⟨d, ⟨path, hpath, hd⟩, rfl⟩ := hexists
    refine ⟨?_, path, hpath, steps_of_directoryOf? hd⟩
    rw [Files.Path.steps_eq_stepsOf (directoryOf?_ne_empty hd)]
    exact Files.Path.stepsOf_ne_nil (Text.segments_ne_nil _)
  · intro hexists
    obtain ⟨hne, path, hpath, rfl⟩ := hexists
    obtain ⟨d, hd⟩ := exists_directoryOf? hne
    exact ⟨d, ⟨path, hpath, hd⟩, steps_of_directoryOf? hd⟩

private theorem searched_of_not_isDirectory (h : f.isDirectory root = false) (sources : List String) :
    searched f root sources = sources.filterMap directoryOf? := by
  rw [Files.isDirectory] at h
  rw [searched]
  cases hentry : f.entry? root with
  | none => rfl
  | some e =>
    cases e with
    | file b => rfl
    | directory es => simp [hentry, Entry.isDirectory, Entry.isFile] at h

/-- The directories that are searched are those that are seen from the root and those of sources. -/
theorem mem_searched_iff_isVisible (hf : f.root.isProper) : directory ∈ searched f root sources ↔
    (∃ names, IsVisible f root names ∧ directory = names.foldl Files.Path.join root) ∨
      directory ∈ sources.filterMap directoryOf? := by
  by_cases hroot : f.isDirectory root
  · obtain ⟨place, hplace, hat⟩ := Files.exists_place_of_isDirectory hroot
    have hne := Files.ne_empty_of_place? hplace
    have hthere {names : List String} (hnames : ∀ n ∈ names, IsName n) :
        f.isDirectory (names.foldl Files.Path.join root) ↔ f.isDirectoryAt (place ++ names) :=
      isDirectory_iff_of_steps hplace (Files.Path.foldl_join_ne_empty hne names)
        (Files.Path.steps_foldl_join hne hnames)
    rw [mem_searched_iff hf hplace hat]
    refine or_congr_left (exists_congr fun names => ?_)
    simp only [isSkippedDirectory_eq_false_iff]
    constructor
    · intro hseen
      obtain ⟨hat, hvisible, hnames, rfl⟩ := hseen
      exact ⟨⟨hroot, (hthere hnames).mpr hat, hnames, hvisible⟩, rfl⟩
    · intro hseen
      obtain ⟨⟨-, hdirectory, hnames, hvisible⟩, rfl⟩ := hseen
      exact ⟨(hthere hnames).mp hdirectory, hvisible, hnames, rfl⟩
  · rw [searched_of_not_isDirectory (by simpa using hroot)]
    constructor
    · exact .inr
    · intro hsearched
      rcases hsearched with ⟨names, hvisible, -⟩ | hsource
      · exact (hroot hvisible.isDirectory_root).elim
      · exact hsource

private theorem mem_map_steps_scope_iff (hf : f.root.isProper) :
    ss ∈ (scope f root sources).map steps ↔
      (∃ names, IsVisible f root names ∧ ss = steps root ++ names.map .name) ∨
        ss ≠ [] ∧ ∃ path ∈ sources, ss = (steps path).dropLast := by
  have hsteps {names : List String} (h : IsVisible f root names) :
      steps (names.foldl Files.Path.join root) = steps root ++ names.map .name := by
    obtain ⟨place, hplace, -⟩ := Files.exists_place_of_isDirectory h.isDirectory_root
    exact Files.Path.steps_foldl_join (Files.ne_empty_of_place? hplace) h.isName
  rw [mem_map_steps_scope, ← mem_map_steps_directoryOf?]
  constructor
  · intro hss
    obtain ⟨d, hd, rfl⟩ := List.mem_map.mp hss
    rcases (mem_searched_iff_isVisible hf).mp hd with ⟨names, hvisible, rfl⟩ | hsource
    · exact .inl ⟨names, hvisible, hsteps hvisible⟩
    · exact .inr (List.mem_map_of_mem hsource)
  · intro hmade
    rcases hmade with ⟨names, hvisible, rfl⟩ | hsource
    · rw [← hsteps hvisible]
      exact List.mem_map_of_mem ((mem_searched_iff_isVisible hf).mpr (.inl ⟨names, hvisible, rfl⟩))
    · obtain ⟨d, hd, rfl⟩ := List.mem_map.mp hsource
      exact List.mem_map_of_mem ((mem_searched_iff_isVisible hf).mpr (.inr hd))

/-- A scope has just the directories that are seen from its root, which is one of them whatever its name,
and those of its sources, which may lie in skipped ones. It has each of them once and in order. -/
theorem scope_is_visible_directories (f : Files) (hf : f.root.isProper) (root : String)
    (sources : List String) :
    ((scope f root sources).map steps).Pairwise (· < ·) ∧
      (∀ ss, ss ∈ (scope f root sources).map steps ↔
        (∃ names, IsVisible f root names ∧ ss = steps root ++ names.map .name) ∨
          ss ≠ [] ∧ ∃ path ∈ sources, ss = (steps path).dropLast) ∧
      (∀ directory ∈ scope f root sources,
        (∃ names, IsVisible f root names ∧ directory = names.foldl Files.Path.join root) ∨
          ∃ path ∈ sources, directoryOf? path = some directory) ∧
      (f.isDirectory root → steps root ∈ (scope f root sources).map steps) ∧
      (f.isDirectory root = false → ∀ directory ∈ scope f root sources,
        ∃ path ∈ sources, directoryOf? path = some directory) := by
  have htexts : ∀ directory ∈ scope f root sources,
      (∃ names, IsVisible f root names ∧ directory = names.foldl Files.Path.join root) ∨
        ∃ path ∈ sources, directoryOf? path = some directory := by
    intro directory hdirectory
    rw [← List.mem_filterMap]
    exact (mem_searched_iff_isVisible hf).mp (mem_searched_of_mem_scope hdirectory)
  refine ⟨pairwise_map_steps_scope f root sources, fun ss => mem_map_steps_scope_iff hf, htexts,
    fun hroot => ?_, fun hroot directory hdirectory => ?_⟩
  · have hvisible : IsVisible f root [] :=
      ⟨hroot, hroot, List.forall_mem_nil _, List.forall_mem_nil _⟩
    exact (mem_map_steps_scope_iff hf).mpr (.inl ⟨[], hvisible, by simp⟩)
  · refine (htexts directory hdirectory).resolve_left ?_
    intro hexists
    obtain ⟨names, hvisible, -⟩ := hexists
    rw [hvisible.isDirectory_root] at hroot
    cases hroot

theorem scope_is_visible_directories_below_target :
    let f : Files := ⟨.directory [("target", .directory
      [("main", .directory []), (".git", .directory [("hooks", .directory [])])])], [], .reliable⟩
    let sources := ["/target/.git/hooks/A.java", "B.java"]
    f.root.isProper ∧
      [.root, .name "target", .name "main"] ∈ (scope f "/target" sources).map steps ∧
      [.root, .name "target", .name ".git", .name "hooks"] ∈ (scope f "/target" sources).map steps ∧
      [.root, .name "target", .name ".git"] ∉ (scope f "/target" sources).map steps := by
  intro f sources
  have hf : f.root.isProper := by decide +kernel
  have hroot : steps "/target" = [.root, .name "target"] := by decide +kernel
  obtain ⟨-, hscope, -⟩ := scope_is_visible_directories f hf "/target" sources
  refine ⟨hf, (hscope _).mpr (.inl ⟨["main"], ⟨?_, ?_, ?_, ?_⟩, ?_⟩),
    (hscope _).mpr (.inr ⟨by simp, _, List.mem_cons_self, ?_⟩), fun h => ?_⟩
  · decide +kernel
  · decide +kernel
  · exact List.forall_mem_singleton.mpr (by decide +kernel)
  · decide +kernel
  · decide +kernel
  · decide +kernel
  · rcases (hscope _).mp h with ⟨names, hvisible, hnames⟩ | ⟨-, hsource⟩
    · have hname : names.map Step.name = [.name ".git"] := by simpa [hroot] using hnames.symm
      obtain ⟨n, rfl, hn⟩ := List.map_eq_singleton_iff.mp hname
      obtain rfl := Step.name.inj hn
      exact (hvisible.not_skipped _ List.mem_cons_self).1 (by decide +kernel)
    · revert hsource
      decide +kernel

end StructureGraph.Resolution
