import Mathlib.Data.List.Sort
import StructureGraph.Proofs.Files.Tree
import StructureGraph.Proofs.Resolution.Resolver

namespace StructureGraph.Resolution

open StructureGraph.Java
open StructureGraph.Text (segments)
open Files (Entry Extends)
open Files.Path (IsName IsPlain EndsInName Step steps)

variable {f f' : Files} {hidden : List String → Prop} {directory root path : String}
  {name names place below sources : List String} {e : Entry} {u : CompilationUnit}

/-- What is joined to the path of a directory. -/
def typeSegments (name : List String) : List String :=
  name.dropLast ++ [name.getLastD "" ++ ".java"]

private theorem typeFile_eq_foldl (directory : String) (name : List String) :
    typeFile directory name = (typeSegments name).foldl Files.Path.join directory := by
  rw [typeSegments, List.foldl_append]
  rfl

private theorem isPlain_of_mem_typeSegments (h : ∀ s ∈ name, '.' ∉ s.toList) :
    ∀ s ∈ typeSegments name, IsPlain s := by
  rcases List.eq_nil_or_concat name with rfl | ⟨before, last, rfl⟩
  · intro s hs
    rw [List.mem_singleton.mp hs]
    exact Files.Path.isPlain_append (by decide) (by decide) (by decide)
  · intro s hs
    rw [List.concat_eq_append] at h hs
    simp only [typeSegments, List.dropLast_concat, List.getLastD_concat, List.mem_append,
      List.mem_singleton] at hs
    rcases hs with hs | rfl
    · exact Files.Path.isPlain_of_no_dot (h s (by simp [hs]))
    · exact Files.Path.isPlain_append (h last (by simp)) (by decide) (by decide)

private theorem isAbsolute_append_java (s : String) :
    Files.Path.isAbsolute (s ++ ".java") = Files.Path.isAbsolute s := by
  rw [Files.Path.isAbsolute, Files.Path.isAbsolute, String.toList_append]
  cases s.toList <;> rfl

private theorem exists_isAbsolute_typeSegments :
    (∃ s ∈ typeSegments name, Files.Path.isAbsolute s) ↔ ∃ s ∈ name, Files.Path.isAbsolute s := by
  rcases List.eq_nil_or_concat name with rfl | ⟨before, last, rfl⟩
  · simp [typeSegments, Files.Path.isAbsolute]
  · rw [List.concat_eq_append]
    simp [typeSegments, isAbsolute_append_java]

/-- A name with an absolute part says its file without the directory. -/
theorem typeFile_congr (h : ∃ s ∈ name, Files.Path.isAbsolute s) (directory directory' : String) :
    typeFile directory name = typeFile directory' name := by
  rw [typeFile_eq_foldl, typeFile_eq_foldl]
  exact Files.Path.foldl_join_of_isAbsolute (exists_isAbsolute_typeSegments.mpr h) _ _

/-- Files of types are named so. -/
theorem exists_of_place?_typeFile (h : f.place? (typeFile directory name) = some place) :
    ∃ parent before, place = parent ++ [before ++ ".java"] := by
  obtain ⟨before, last, -, hs⟩ := @Text.segments_append_of_not_mem '/'
    (name.getLastD "") ".java" (by decide)
  obtain ⟨rest, hsegments⟩ := Files.Path.exists_segments_join hs
    (name.dropLast.foldl Files.Path.join directory)
  have hlast : '/' ∉ (last ++ ".java").toList :=
    Text.not_mem_of_mem_segments (hs ▸ List.mem_append_right before List.mem_cons_self)
  have hlong : 2 < (last ++ ".java").length := by
    have hjava : ".java".length = 5 := rfl
    rw [String.length_append]
    omega
  have hname := Files.Path.fileName?_of_segments hsegments (Files.Path.isName_of_length hlong hlast)
  obtain ⟨parent, rfl, -⟩ := Files.place_of_fileName? hname h
  exact ⟨parent, last, rfl⟩

private theorem exists_holds_of_loadUnit? (h : loadUnit? f path = some u) :
    ∃ place b, f.place? path = some place ∧ f.Holds place b := by
  obtain ⟨text, htext, -⟩ := Option.bind_eq_some_iff.mp h
  obtain ⟨b, hb, -⟩ := Option.bind_eq_some_iff.mp htext
  obtain ⟨place, hplace, hholds⟩ := Files.bytes?_eq_some_iff.mp hb
  exact ⟨place, b, hplace, hholds⟩

/-- No file in a hidden place declares a type. -/
def NoUnits (hidden : List String → Prop) (f : Files) : Prop :=
  ∀ directory name place, f.place? (typeFile directory name) = some place → hidden place →
    loadUnit? f (typeFile directory name) = none

variable (h : Extends hidden f f') (hnone' : NoUnits hidden f')
  (hname : ∀ s ∈ name, '.' ∉ s.toList)

include h hnone' hname

/-- The directories that were there before give the same units. -/
theorem loadUnit?_typeFile_congr (hnone : NoUnits hidden f) (hdirectory : f.isDirectory directory) :
    loadUnit? f' (typeFile directory name) = loadUnit? f (typeFile directory name) := by
  have hne : directory ≠ "" := by
    rintro rfl
    cases hdirectory
  have hends := endsInName_typeFile directory name
  obtain ⟨start, hstart, rest, hsteps⟩ := Files.Path.exists_start_foldl_join
    (isPlain_of_mem_typeSegments hname) hne
  rw [← typeFile_eq_foldl] at hsteps
  have hleads : ∃ q, start.foldlM f.follow f.workingDirectory = some q := by
    rcases hstart with rfl | rfl
    · obtain ⟨q, hq, -⟩ := (Files.isDirectory_iff hne).mp hdirectory
      exact ⟨q, hq⟩
    · exact ⟨[], rfl⟩
  obtain ⟨q, hq⟩ := hleads
  have hload : ∀ {place}, f.place? (typeFile directory name) = some place → ¬hidden place →
      loadUnit? f' (typeFile directory name) = loadUnit? f (typeFile directory name) := by
    intro place hplace hseen
    rw [loadUnit?, loadUnit?, h.text? hplace hseen]
  refine Option.ext fun u => ⟨fun hu => ?_, fun hu => ?_⟩
  · obtain ⟨place, b, hplace, hholds⟩ := exists_holds_of_loadUnit? hu
    have hseen : ¬hidden place := fun hp => by
      rw [hnone' _ _ _ hplace hp] at hu
      cases hu
    have hthere : f.Holds place b := (h.holds place b hseen).mp hholds
    have hdestination : place = f.destination (typeFile directory name) := by
      rw [Files.eq_destination hplace, Files.destination, h.workingDirectory]
      rfl
    rw [hdestination] at hthere hseen
    have hplace := Files.place?_of_start hends hsteps hq (by rw [hthere]; rfl)
    rwa [← hload hplace hseen]
  · obtain ⟨place, b, hplace, -⟩ := exists_holds_of_loadUnit? hu
    have hseen : ¬hidden place := fun hp => by
      rw [hnone _ _ _ hplace hp] at hu
      cases hu
    rwa [hload hplace hseen]

/-- A directory that was not there before gives a unit only by a name that leads elsewhere. -/
theorem exists_isAbsolute_of_loadUnit? (hroot : f.place? root = some place)
    (hsteps : steps directory = steps root ++ below.map .name) (hdirectory : directory ≠ "")
    (hnew : f.isDirectoryAt (place ++ below) = false) (hmade : f'.isDirectoryAt (place ++ below))
    (hu : loadUnit? f' (typeFile directory name) = some u) :
    ∃ s ∈ name, Files.Path.isAbsolute s := by
  by_contra hrelative
  obtain ⟨q, b, hq, hholds⟩ := exists_holds_of_loadUnit? hu
  have hseen : ¬hidden q := fun hp => by
    rw [hnone' _ _ _ hq hp] at hu
    cases hu
  have hthere : f.Holds q b := (h.holds q b hseen).mp hholds
  rw [← exists_isAbsolute_typeSegments] at hrelative
  obtain ⟨rest, hrest⟩ := Files.Path.exists_steps_foldl_join (isPlain_of_mem_typeSegments hname)
    (fun s hs => by simpa using fun ha => hrelative ⟨s, hs, ha⟩) hdirectory
  have hplace : q = place ++ below ++ rest := by
    rw [Files.eq_destination hq, Files.destination, typeFile_eq_foldl, hrest, hsteps, List.foldl_append,
      List.foldl_append, Files.foldl_move_names, Files.foldl_move_names, h.workingDirectory,
      Files.eq_destination hroot]
    rfl
  rw [hplace] at hthere hholds
  by_cases hrest : rest = []
  · rw [hrest, List.append_nil] at hholds
    rw [Files.isDirectoryAt, hholds] at hmade
    cases hmade
  · rw [Files.isDirectoryAt_of_descend? hthere hrest] at hnew
    cases hnew

omit h hnone' hname

private theorem no_dot_of_take {qualifiedName : String} (n : Nat) :
    ∀ s ∈ (segments '.' qualifiedName).take n, '.' ∉ s.toList :=
  fun _ hs => Text.not_mem_of_mem_segments (List.mem_of_mem_take hs)

private theorem declaredType?_congr_loadUnit? {directory' qualifiedName : String}
    (hload : ∀ n, loadUnit? f' (typeFile directory' ((segments '.' qualifiedName).take n)) =
      loadUnit? f (typeFile directory ((segments '.' qualifiedName).take n))) :
    declaredType? f' directory' qualifiedName = declaredType? f directory qualifiedName := by
  have hin : declaredIn? f' directory' (segments '.' qualifiedName) =
      declaredIn? f directory (segments '.' qualifiedName) :=
    funext fun n => by rw [declaredIn?, declaredIn?, hload]
  simp only [declaredType?, hin]

/-- What a directory declares depends on its steps. -/
theorem declaredType?_congr_steps {directory' : String} (hne : directory ≠ "") (hne' : directory' ≠ "")
    (hsteps : steps directory = steps directory') (qualifiedName : String) :
    declaredType? f directory qualifiedName = declaredType? f directory' qualifiedName := by
  refine declaredType?_congr_loadUnit? fun n => ?_
  refine loadUnit?_congr_steps (endsInName_typeFile _ _) (endsInName_typeFile _ _) ?_
  rw [typeFile_eq_foldl, typeFile_eq_foldl]
  exact Files.Path.steps_foldl_join_congr hne hne' hsteps _

include h hnone'

private theorem declaredType?_congr (hnone : NoUnits hidden f) (hdirectory : f.isDirectory directory)
    (qualifiedName : String) :
    declaredType? f' directory qualifiedName = declaredType? f directory qualifiedName :=
  declaredType?_congr_loadUnit? fun n =>
    loadUnit?_typeFile_congr h hnone' (no_dot_of_take n) hnone hdirectory

/-- What a directory declares that was not there before, every other one declares as well. -/
theorem declaredType?_of_new {qualifiedName : String} {t : FoundType} (hroot : f.place? root = some place)
    (hsteps : steps directory = steps root ++ below.map .name) (hdirectory : directory ≠ "")
    (hnew : f.isDirectoryAt (place ++ below) = false) (hmade : f'.isDirectoryAt (place ++ below))
    (ht : declaredType? f' directory qualifiedName = some t) (directory' : String) :
    declaredType? f' directory' qualifiedName = some t := by
  obtain ⟨longer, n, shorter, hlengths, hn, hlonger⟩ := List.findSome?_eq_some_iff.mp ht
  obtain ⟨u, hu, -⟩ := Option.bind_eq_some_iff.mp hn
  obtain ⟨s, hs, habsolute⟩ := exists_isAbsolute_of_loadUnit? h hnone' (no_dot_of_take n) hroot hsteps
    hdirectory hnew hmade hu
  have hsame : ∀ m, n ≤ m → declaredIn? f' directory' (segments '.' qualifiedName) m =
      declaredIn? f' directory (segments '.' qualifiedName) m := by
    intro m hm
    have hmem : s ∈ (segments '.' qualifiedName).take m := List.take_subset_take_left _ hm hs
    rw [declaredIn?, declaredIn?, typeFile_congr ⟨s, hmem, habsolute⟩ directory' directory]
  have hdecreasing : (longer ++ n :: shorter).Pairwise (· > ·) := by
    rw [← hlengths, fileLengths, List.pairwise_reverse]
    exact List.pairwise_lt_range' 1
  refine List.findSome?_eq_some_iff.mpr ⟨longer, n, shorter, hlengths, ?_, fun m hm => ?_⟩
  · rw [hsame n le_rfl, hn]
  · have hgt : m > n := (List.pairwise_append.mp hdecreasing).2.2 m hm n List.mem_cons_self
    rw [hsame m hgt.le, hlonger m hm]

omit h hnone'

private theorem visibleDirectoriesAmong_eq_flatMap (path : String) (es : List (String × Entry)) :
    visibleDirectoriesAmong path es = es.flatMap fun x =>
      if isSkippedDirectory x.1 then [] else visibleDirectories (Files.Path.join path x.1) x.2 := by
  induction es with
  | nil => rfl
  | cons x es ih => rw [visibleDirectoriesAmong, ih, List.flatMap_cons]

mutual

/-- A visible directory has no skipped name on the way to it. -/
theorem exists_of_mem_visibleDirectories : ∀ {e : Entry} {root : String}, e.isProper →
    path ∈ visibleDirectories root e → ∃ names es, e.descend? names = some (.directory es) ∧
      (∀ n ∈ names, isSkippedDirectory n = false ∧ IsName n) ∧
      path = names.foldl Files.Path.join root
  | .file b, _, _, h => by cases h
  | .directory es, root, hproper, h => by
    rw [visibleDirectories] at h
    rcases List.mem_cons.mp h with rfl | h
    · exact ⟨[], es, rfl, nofun, rfl⟩
    · obtain ⟨n, c, hc, names, ds, hd, hnames, hpath⟩ :=
        exists_of_mem_visibleDirectoriesAmong hproper h
      refine ⟨n :: names, ds, ?_, hnames, hpath⟩
      rw [Entry.descend?_cons, (Entry.mem_iff_child? hproper).mp hc]
      exact hd

private theorem exists_of_mem_visibleDirectoriesAmong : ∀ {es : List (String × Entry)} {root : String},
    Entry.areProper es → path ∈ visibleDirectoriesAmong root es → ∃ n c, (n, c) ∈ es ∧
      ∃ names ds, c.descend? names = some (.directory ds) ∧
        (∀ m ∈ n :: names, isSkippedDirectory m = false ∧ IsName m) ∧
        path = (n :: names).foldl Files.Path.join root
  | [], _, _, h => by cases h
  | (n, c) :: es, root, hproper, h => by
    obtain ⟨hn, -, hc, hes⟩ := Entry.areProper_cons.mp hproper
    rw [visibleDirectoriesAmong, List.mem_append] at h
    rcases h with h | h
    · split at h
      · cases h
      · rename_i hvisible
        obtain ⟨names, ds, hd, hnames, hpath⟩ := exists_of_mem_visibleDirectories hc h
        exact ⟨n, c, List.mem_cons_self, names, ds, hd,
          List.forall_mem_cons.mpr ⟨⟨by simpa using hvisible, hn⟩, hnames⟩, hpath⟩
    · obtain ⟨m, d, hd, hrest⟩ := exists_of_mem_visibleDirectoriesAmong hes h
      exact ⟨m, d, List.mem_cons_of_mem _ hd, hrest⟩

end

private theorem mem_visibleDirectories {es : List (String × Entry)} (hproper : e.isProper)
    (hthere : e.descend? names = some (.directory es))
    (hvisible : ∀ n ∈ names, isSkippedDirectory n = false) (root : String) :
    names.foldl Files.Path.join root ∈ visibleDirectories root e := by
  induction names generalizing e root with
  | nil =>
    rw [Option.some.inj hthere, visibleDirectories]
    exact List.mem_cons_self
  | cons n names ih =>
    obtain ⟨hn, hnames⟩ := List.forall_mem_cons.mp hvisible
    obtain ⟨c, hc, hrest⟩ := Option.bind_eq_some_iff.mp hthere
    cases e with
    | file b => cases hc
    | directory ds =>
      rw [visibleDirectories, visibleDirectoriesAmong_eq_flatMap]
      refine List.mem_cons_of_mem _ (List.mem_flatMap.mpr
        ⟨(n, c), (Entry.mem_iff_child? hproper).mpr hc, ?_⟩)
      rw [if_neg (by simp [hn])]
      exact ih (Entry.isProper_of_child? hproper hc).2 hrest hnames _

/-- Of the paths that mean the same one stays. -/
theorem mem_map_steps_dropSamePaths {ss : List Step} {paths : List String} :
    ss ∈ (dropSamePaths paths).map steps ↔ ss ∈ paths.map steps := by
  induction paths with
  | nil => rfl
  | cons p ps ih =>
    rw [dropSamePaths, List.map_cons, List.map_cons, List.mem_cons, List.mem_cons, ← ih]
    refine or_congr_right' fun hss => ?_
    simp only [List.mem_map, List.mem_filter, bne_iff_ne, and_assoc]
    refine exists_congr fun q => and_congr_right fun _ => ?_
    constructor
    · exact And.right
    · intro hq
      exact ⟨hq ▸ hss, hq⟩

private theorem pairwise_dropSamePaths (paths : List String) :
    (dropSamePaths paths).Pairwise fun a b => steps a ≠ steps b := by
  induction paths with
  | nil => exact .nil
  | cons p ps ih =>
    rw [dropSamePaths, List.pairwise_cons]
    refine ⟨fun q hq => ?_, ih.filter _⟩
    exact fun heq => bne_iff_ne.mp (List.mem_filter.mp hq).2 heq.symm

private theorem subset_dropSamePaths {paths : List String} (h : path ∈ dropSamePaths paths) :
    path ∈ paths := by
  induction paths with
  | nil => exact h
  | cons p ps ih =>
    rcases List.mem_cons.mp h with rfl | h
    · exact List.mem_cons_self
    · exact List.mem_cons_of_mem p (ih (List.mem_of_mem_filter h))

/-- The directories of which a scope is made. -/
def searched (f : Files) (root : String) (sources : List String) : List String :=
  ((f.entry? root).map (visibleDirectories root)).getD [] ++ sources.filterMap directoryOf?

theorem mem_searched_of_mem_scope (h : directory ∈ scope f root sources) :
    directory ∈ searched f root sources :=
  subset_dropSamePaths (List.mem_mergeSort.mp h)

theorem mem_map_steps_scope {ss : List Step} :
    ss ∈ (scope f root sources).map steps ↔ ss ∈ (searched f root sources).map steps :=
  ((List.mergeSort_perm _ _).map steps).mem_iff.trans mem_map_steps_dropSamePaths

/-- A scope is in strict order: no two of its directories mean the same. -/
theorem pairwise_map_steps_scope (f : Files) (root : String) (sources : List String) :
    ((scope f root sources).map steps).Pairwise (· < ·) := by
  rw [List.pairwise_map]
  have hle := Files.Path.pairwise_mergeSort (dropSamePaths (searched f root sources))
  have hne : (scope f root sources).Pairwise fun a b => steps a ≠ steps b :=
    ((List.mergeSort_perm _ _).pairwise_iff fun h => h.symm).mpr (pairwise_dropSamePaths _)
  exact hle.imp₂ (fun a b hab hne => lt_of_le_of_ne ((Files.Path.le_iff a b).mp hab) hne) hne

variable {place' : List String}

/-- Files have a directory. -/
theorem isDirectory_of_directoryOf? (h : directoryOf? path = some directory)
    (hplace : f.place? path = some place) : f.isDirectory directory := by
  obtain ⟨hparent, hne⟩ := Option.filter_eq_some_iff.mp h
  exact Files.isDirectory_of_parent? hparent (bne_iff_ne.mp hne) hplace

/-- What names lead to from a place is a directory if there is one. -/
theorem isDirectory_iff_of_steps (hplace : f.place? root = some place) (hne : directory ≠ "")
    (hsteps : steps directory = steps root ++ below.map .name) :
    f.isDirectory directory ↔ f.isDirectoryAt (place ++ below) := by
  rw [Files.isDirectory_iff hne, hsteps, List.foldlM_append, Files.foldlM_follow_of_place? hplace]
  constructor
  · rintro ⟨q, hq, hdirectory⟩
    rwa [← Files.eq_of_foldlM_follow_names hq]
  · intro hdirectory
    obtain ⟨es, hes⟩ := Files.isDirectoryAt_iff.mp hdirectory
    exact ⟨_, Files.foldlM_follow_names (by rw [hes]; rfl), hdirectory⟩

/-- All directories below a root are searched to which no skipped name leads, and those of sources. -/
theorem mem_searched_iff (hf : f.root.isProper) (hplace : f.place? root = some place)
    (hroot : f.isDirectoryAt place) : directory ∈ searched f root sources ↔
      (∃ names, f.isDirectoryAt (place ++ names) ∧ (∀ n ∈ names, isSkippedDirectory n = false) ∧
        (∀ n ∈ names, IsName n) ∧ directory = names.foldl Files.Path.join root) ∨
      directory ∈ sources.filterMap directoryOf? := by
  obtain ⟨es, hes⟩ := Files.isDirectoryAt_iff.mp hroot
  obtain ⟨hproper, -⟩ := Entry.isProper_descend? hf hes
  have hentry : f.entry? root = some (.directory es) := by rw [Files.entry?, hplace]; exact hes
  have hbelow : ∀ names, f.root.descend? (place ++ names) = (Entry.directory es).descend? names := by
    intro names
    rw [Entry.descend?_append, hes, Option.bind_some]
  rw [searched, hentry, Option.map_some, Option.getD_some, List.mem_append]
  refine or_congr_left ⟨fun h => ?_, fun h => ?_⟩
  · obtain ⟨names, ds, hds, hnames, hdirectory⟩ := exists_of_mem_visibleDirectories hproper h
    exact ⟨names, Files.isDirectoryAt_iff.mpr ⟨ds, (hbelow names).trans hds⟩,
      fun n hn => (hnames n hn).1, fun n hn => (hnames n hn).2, hdirectory⟩
  · obtain ⟨names, hdirectory, hvisible, -, rfl⟩ := h
    obtain ⟨ds, hds⟩ := Files.isDirectoryAt_iff.mp hdirectory
    exact mem_visibleDirectories hproper ((hbelow names).symm.trans hds) hvisible root

private theorem ne_empty_of_mem_searched (hf : f.root.isProper) (hplace : f.place? root = some place)
    (hroot : f.isDirectoryAt place) (h : directory ∈ searched f root sources) : directory ≠ "" := by
  rcases (mem_searched_iff hf hplace hroot).mp h with ⟨names, -, -, -, rfl⟩ | h
  · exact Files.Path.foldl_join_ne_empty (Files.ne_empty_of_place? hplace) names
  · obtain ⟨path, -, hpath⟩ := List.mem_filterMap.mp h
    exact bne_iff_ne.mp (Option.filter_eq_some_iff.mp hpath).2

section

variable (h : Extends hidden f f') (hf : f.IsProper) (hf' : f'.IsProper)
  (hplace : f.place? root = some place) (hroot : f.isDirectoryAt place)
  (hsources : ∀ path ∈ sources, (f.place? path).isSome)

include h hf hf' hplace hroot hsources

/-- The directories that were searched are those that are searched now and were there. -/
theorem mem_searched_iff_of_extends : directory ∈ searched f root sources ↔
    directory ∈ searched f' root sources ∧ f.isDirectory directory := by
  have hne := Files.ne_empty_of_place? hplace
  rw [mem_searched_iff hf.root hplace hroot,
    mem_searched_iff hf'.root (h.place? hplace) (h.isDirectoryAt place hroot)]
  constructor
  · rintro (⟨names, hthere, hvisible, hnames, rfl⟩ | hsource)
    · refine ⟨.inl ⟨names, h.isDirectoryAt _ hthere, hvisible, hnames, rfl⟩, ?_⟩
      exact (isDirectory_iff_of_steps hplace (Files.Path.foldl_join_ne_empty hne names)
        (Files.Path.steps_foldl_join hne hnames)).mpr hthere
    · refine ⟨.inr hsource, ?_⟩
      obtain ⟨path, hpath, hdirectory⟩ := List.mem_filterMap.mp hsource
      obtain ⟨q, hq⟩ := Option.isSome_iff_exists.mp (hsources path hpath)
      exact isDirectory_of_directoryOf? hdirectory hq
  · rintro ⟨⟨names, -, hvisible, hnames, rfl⟩ | hsource, hthere⟩
    · refine .inl ⟨names, ?_, hvisible, hnames, rfl⟩
      exact (isDirectory_iff_of_steps hplace (Files.Path.foldl_join_ne_empty hne names)
        (Files.Path.steps_foldl_join hne hnames)).mp hthere
    · exact .inr hsource

private theorem map_steps_scope_of_extends : (scope f root sources).map steps =
    ((scope f' root sources).filter f.isDirectory).map steps := by
  have hplace' := h.place? hplace
  have hroot' := h.isDirectoryAt place hroot
  have hsearched : ∀ d, d ∈ searched f root sources ↔
      d ∈ searched f' root sources ∧ f.isDirectory d := fun d =>
    mem_searched_iff_of_extends h hf hf' hplace hroot hsources
  refine List.Pairwise.eq_of_mem_iff (pairwise_map_steps_scope f root sources)
    ((pairwise_map_steps_scope f' root sources).sublist (List.filter_sublist.map _)) fun ss => ?_
  rw [mem_map_steps_scope]
  constructor
  · intro hss
    obtain ⟨d, hd, rfl⟩ := List.mem_map.mp hss
    obtain ⟨hd', hdirectory⟩ := (hsearched d).mp hd
    obtain ⟨c, hc, hsteps⟩ := List.mem_map.mp (mem_map_steps_scope.mpr (List.mem_map_of_mem hd'))
    refine List.mem_map.mpr ⟨c, List.mem_filter.mpr ⟨hc, ?_⟩, hsteps⟩
    rwa [Files.isDirectory_congr_steps (ne_empty_of_mem_searched hf'.root hplace' hroot'
      (mem_searched_of_mem_scope hc)) (ne_empty_of_mem_searched hf.root hplace hroot hd) hsteps]
  · intro hss
    obtain ⟨d, hd, rfl⟩ := List.mem_map.mp hss
    obtain ⟨hd, hdirectory⟩ := List.mem_filter.mp hd
    exact List.mem_map_of_mem ((hsearched d).mpr ⟨mem_searched_of_mem_scope hd, hdirectory⟩)

end

variable {τ : Type} {ds ds' : List String} {g g' : String → Option τ}

/-- Where all answer what some of them answer, these may be left out. -/
theorem findSome?_filter {p : String → Bool} (hsome : ∃ d ∈ ds, p d)
    (hother : ∀ d ∈ ds, p d = false → ∀ t, g d = some t → ∀ c, g c = some t) :
    ds.findSome? g = (ds.filter p).findSome? g := by
  by_cases hnew : ∃ d ∈ ds, p d = false ∧ ∃ t, g d = some t
  · obtain ⟨d, hd, hp, t, ht⟩ := hnew
    obtain rfl : g = fun _ => some t := funext (hother d hd hp t ht)
    obtain ⟨c, hc, hpc⟩ := hsome
    have hfind : ∀ {l : List String}, c ∈ l → l.findSome? (fun _ => some t) = some t := by
      intro l hl
      cases l with
      | nil => cases hl
      | cons d ds => rfl
    rw [hfind hc, hfind (List.mem_filter.mpr ⟨hc, hpc⟩)]
  · have hnone : ∀ d ∈ ds, p d = false → g d = none := fun d hd hp => by
      by_contra hsome
      exact hnew ⟨d, hd, hp, Option.ne_none_iff_exists'.mp hsome⟩
    clear hsome hother hnew
    induction ds with
    | nil => rfl
    | cons d ds ih =>
      obtain ⟨hd, hds⟩ := List.forall_mem_cons.mp hnone
      rw [List.findSome?_cons, ih hds]
      by_cases hp : p d
      · rw [List.filter_cons_of_pos hp, List.findSome?_cons]
      · rw [List.filter_cons_of_neg hp, hd (by simpa using hp)]

private theorem findSome?_congr_steps (hsteps : ds.map steps = ds'.map steps)
    (hg : ∀ d ∈ ds, ∀ d' ∈ ds', steps d = steps d' → g d = g' d') :
    ds.findSome? g = ds'.findSome? g' := by
  induction ds generalizing ds' with
  | nil =>
    obtain rfl := List.map_eq_nil_iff.mp hsteps.symm
    rfl
  | cons d ds ih =>
    cases ds' with
    | nil => cases hsteps
    | cons d' ds' =>
      obtain ⟨hd, hds⟩ := List.cons.inj hsteps
      rw [List.findSome?_cons, List.findSome?_cons, hg d List.mem_cons_self d' List.mem_cons_self hd,
        ih hds fun c hc c' hc' => hg c (List.mem_cons_of_mem d hc) c' (List.mem_cons_of_mem d' hc')]

theorem findType?_originsOf (f : Files) (ds : List String) (qualifiedName : String) :
    findType? f (originsOf ds) qualifiedName =
      (ds.findSome? fun d => declaredType? f d qualifiedName).or
        ((BuiltinType.ofName? qualifiedName).map .builtin) := by
  rw [findType?, originsOf, List.findSome?_append, List.findSome?_map, List.findSome?_singleton]
  rfl

/-- A type that a new directory of the scope gives is found by an absolute path, so from every directory. -/
theorem declaredType?_of_mem_scope (h : Extends hidden f f') (hf' : f'.IsProper) (hnone' : NoUnits hidden f')
    (hplace : f.place? root = some place) (hroot : f.isDirectoryAt place)
    (hsources : ∀ path ∈ sources, (f.place? path).isSome) (hd : d ∈ scope f' root sources)
    (hnew : f.isDirectory d = false) (ht : declaredType? f' d qualifiedName = some t) (c : String) :
    declaredType? f' c qualifiedName = some t := by
  have hplace' := h.place? hplace
  have hroot' := h.isDirectoryAt place hroot
  have hmem := mem_searched_of_mem_scope hd
  have hne := ne_empty_of_mem_searched hf'.root hplace' hroot' hmem
  rcases (mem_searched_iff hf'.root hplace' hroot').mp hmem with ⟨names, hmade, -, hnames, rfl⟩ | hsource
  · have hsteps := Files.Path.steps_foldl_join (Files.ne_empty_of_place? hplace) hnames
    refine declaredType?_of_new h hnone' hplace hsteps hne ?_ hmade ht c
    rw [← Bool.not_eq_true] at hnew ⊢
    rwa [← isDirectory_iff_of_steps hplace hne hsteps]
  · -- The directory of a source file was there before.
    obtain ⟨path, hpath, hdirectory⟩ := List.mem_filterMap.mp hsource
    obtain ⟨q, hq⟩ := Option.isSome_iff_exists.mp (hsources path hpath)
    rw [isDirectory_of_directoryOf? hdirectory hq] at hnew
    cases hnew

/-- Types are found as they were, whatever lies in hidden places and whatever directories were made. -/
theorem findType?_scope_of_extends (h : Extends hidden f f') (hf : f.IsProper) (hf' : f'.IsProper)
    (hnone : NoUnits hidden f) (hnone' : NoUnits hidden f') (hplace : f.place? root = some place)
    (hroot : f.isDirectoryAt place) (hsources : ∀ path ∈ sources, (f.place? path).isSome) :
    findType? f' (originsOf (scope f' root sources)) = findType? f (originsOf (scope f root sources)) := by
  funext qualifiedName
  have hplace' := h.place? hplace
  have hroot' := h.isDirectoryAt place hroot
  have hkept := map_steps_scope_of_extends h hf hf' hplace hroot hsources
  have hne := fun d (hd : d ∈ scope f root sources) =>
    ne_empty_of_mem_searched hf.root hplace hroot (mem_searched_of_mem_scope hd)
  have hne' := fun d (hd : d ∈ scope f' root sources) =>
    ne_empty_of_mem_searched hf'.root hplace' hroot' (mem_searched_of_mem_scope hd)
  have hsome : ∃ d ∈ scope f' root sources, f.isDirectory d := by
    have hmem : root ∈ searched f root sources :=
      (mem_searched_iff hf.root hplace hroot).mpr (.inl ⟨[], by simpa using hroot, nofun, nofun, rfl⟩)
    have hsteps := mem_map_steps_scope.mpr (List.mem_map_of_mem hmem)
    rw [hkept] at hsteps
    obtain ⟨d, hd, -⟩ := List.mem_map.mp hsteps
    exact ⟨d, List.mem_filter.mp hd⟩
  have hother : ∀ d ∈ scope f' root sources, f.isDirectory d = false → ∀ t,
      declaredType? f' d qualifiedName = some t → ∀ c, declaredType? f' c qualifiedName = some t :=
    fun d hd hnew t ht => declaredType?_of_mem_scope h hf' hnone' hplace hroot hsources hd hnew ht
  rw [findType?_originsOf, findType?_originsOf, findSome?_filter hsome hother]
  refine congrArg (Option.or · _) (findSome?_congr_steps hkept.symm fun d hd c hc hsteps => ?_)
  obtain ⟨hd, hdirectory⟩ := List.mem_filter.mp hd
  rw [declaredType?_congr h hnone' hnone hdirectory, declaredType?_congr_steps (hne' d hd) (hne c hc) hsteps]

end StructureGraph.Resolution
