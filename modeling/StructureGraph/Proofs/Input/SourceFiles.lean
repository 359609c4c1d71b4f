import StructureGraph.Input.SourceFiles
import StructureGraph.Proofs.Files.Tree

namespace StructureGraph.Input

open Files (Entry Extends)
open Files.Path (IsName Step steps)

variable {f f' : Files} {place names : List String} {path : String} {levels : List Level}
  {below : List String} {x : FoundFile} {e e' : Entry} {es : List (String × Entry)}

/-- A file of rules can be at the place. -/
def IsRulesAt (place : List String) : Prop :=
  ∃ rules ∈ [[".ignore"], [".gitignore"], [".git", "info", "exclude"]], rules <:+ place

/-- The same files of rules are there. -/
def SameRules (f f' : Files) : Prop := ∀ p b, IsRulesAt p → (f'.Holds p b ↔ f.Holds p b)

theorem SameRules.symm (h : SameRules f f') : SameRules f' f := fun p b hp => (h p b hp).symm

private theorem rulesIn_of_not_file (h : ∀ b, e.descend? names ≠ some (.file b)) :
    Level.rulesIn e names = [] := by
  rw [Level.rulesIn]
  split
  · rename_i b hb
    exact (h b hb).elim
  · rfl

private theorem rulesIn_congr
    (h : ∀ b, e'.descend? names = some (.file b) ↔ e.descend? names = some (.file b)) :
    Level.rulesIn e' names = Level.rulesIn e names := by
  by_cases hfile : ∃ b, e.descend? names = some (.file b)
  · obtain ⟨b, hb⟩ := hfile
    simp only [Level.rulesIn, hb, (h b).mpr hb]
  · have hnone : ∀ b, e.descend? names ≠ some (.file b) := not_exists.mp hfile
    rw [rulesIn_of_not_file hnone, rulesIn_of_not_file fun b hb => hnone b ((h b).mp hb)]

/-- The same rules lie in a directory, whatever else does. -/
theorem ofDirectory_congr (hrules : SameRules f f') (he : f.root.descend? place = some e)
    (he' : f'.root.descend? place = some e') (depth : Nat) :
    Level.ofDirectory depth e' = Level.ofDirectory depth e := by
  have hsame : ∀ rules ∈ [[".ignore"], [".gitignore"], [".git", "info", "exclude"]],
      Level.rulesIn e' rules = Level.rulesIn e rules := by
    intro rules hmem
    refine rulesIn_congr fun b => ?_
    have hholds := hrules (place ++ rules) b ⟨rules, hmem, List.suffix_append _ _⟩
    rw [Files.Holds, Files.Holds, Entry.descend?_append, Entry.descend?_append, he, he'] at hholds
    exact hholds
  rw [Level.ofDirectory, Level.ofDirectory, hsame _ (by simp), hsame _ (by simp), hsame _ (by simp)]

private theorem above_congr (hrules : SameRules f f') (he : f.root.descend? place = some e)
    (he' : f'.root.descend? place = some e') :
    Level.above f'.root place = Level.above f.root place := by
  rw [Level.above, Level.above]
  refine congrArg _ (List.filterMap_congr fun depth hdepth => ?_)
  have hsplit := List.take_append_drop depth place
  rw [← hsplit, Entry.descend?_append] at he he'
  obtain ⟨c, hc, -⟩ := Option.bind_eq_some_iff.mp he
  obtain ⟨c', hc', -⟩ := Option.bind_eq_some_iff.mp he'
  rw [hc, hc', Option.map_some, Option.map_some, ofDirectory_congr hrules hc hc']

private theorem filesAmong_eq_flatMap (levels : List Level) (place : List String) (path : String)
    (below : List String) (es : List (String × Entry)) :
    filesAmong levels place path below es = es.flatMap fun y =>
      if isLeftOut levels (place ++ [y.1]) y.1 y.2.isDirectory then []
      else filesIn levels (place ++ [y.1]) (Files.Path.join path y.1) (below ++ [y.1]) y.2 := by
  induction es with
  | nil => rfl
  | cons y es ih => rw [filesAmong, ih, List.flatMap_cons]

private theorem mem_filesAmong : x ∈ filesAmong levels place path below es ↔
    ∃ n c, (n, c) ∈ es ∧ isLeftOut levels (place ++ [n]) n c.isDirectory = false ∧
      x ∈ filesIn levels (place ++ [n]) (Files.Path.join path n) (below ++ [n]) c := by
  rw [filesAmong_eq_flatMap, List.mem_flatMap, Prod.exists]
  refine exists_congr fun n => exists_congr fun c => and_congr_right fun _ => ?_
  cases isLeftOut levels (place ++ [n]) n c.isDirectory <;> simp

mutual

/-- What is found is a file below the directory, under the names that lead to it. -/
theorem located_of_mem_filesIn : ∀ {e : Entry} {levels : List Level} {place : List String}
    {path : String} {below : List String} {x : FoundFile}, e.isProper →
      x ∈ filesIn levels place path below e → ∃ names b, e.descend? names = some (.file b) ∧
        (∀ n ∈ names, IsName n) ∧ x = ⟨names.foldl Files.Path.join path, below ++ names⟩
  | .file b, _, _, _, _, x, _, h => by
    rw [filesIn, List.mem_singleton] at h
    exact ⟨[], b, rfl, nofun, by simp [h]⟩
  | .directory es, _, _, _, _, x, hproper, h => by
    rw [filesIn] at h
    obtain ⟨n, c, hc, names, b, hfile, hnames, hx⟩ := located_of_mem_filesAmong hproper h
    refine ⟨n :: names, b, ?_, hnames, by rw [hx]⟩
    rw [Entry.descend?_cons, (Entry.mem_iff_child? hproper).mp hc]
    exact hfile

private theorem located_of_mem_filesAmong : ∀ {es : List (String × Entry)} {levels : List Level}
    {place : List String} {path : String} {below : List String} {x : FoundFile},
      Entry.areProper es → x ∈ filesAmong levels place path below es →
        ∃ n c, (n, c) ∈ es ∧ ∃ names b, c.descend? names = some (.file b) ∧
          (∀ m ∈ n :: names, IsName m) ∧
          x = ⟨(n :: names).foldl Files.Path.join path, below ++ n :: names⟩
  | [], _, _, _, _, _, _, h => by cases h
  | (n, c) :: es, _, _, _, _, x, hproper, h => by
    obtain ⟨hn, -, hc, hes⟩ := Entry.areProper_cons.mp hproper
    rw [filesAmong, List.mem_append] at h
    rcases h with h | h
    · split at h
      · cases h
      · obtain ⟨names, b, hfile, hnames, hx⟩ := located_of_mem_filesIn hc h
        refine ⟨n, c, List.mem_cons_self, names, b, hfile,
          List.forall_mem_cons.mpr ⟨hn, hnames⟩, ?_⟩
        rw [hx, List.foldl_cons, List.append_assoc, List.singleton_append]
    · obtain ⟨m, d, hd, hrest⟩ := located_of_mem_filesAmong hes h
      exact ⟨m, d, List.mem_cons_of_mem _ hd, hrest⟩

end

private theorem isDirectory_of_descend? {b : ByteArray} (h : e.descend? names = some (.file b)) :
    e.isDirectory = !names.isEmpty := by
  cases names with
  | nil =>
    rw [Option.some.inj h]
    rfl
  | cons n names =>
    cases e with
    | file c => cases h
    | directory es => rfl

/-- A file is found in a directory if it is found in the entry of its first name. -/
theorem mem_filesIn_cons {n : String} (hproper : Entry.areProper es) :
    ⟨(n :: names).foldl Files.Path.join path, below ++ n :: names⟩ ∈
        filesIn levels place path below (.directory es) ↔
      ∃ c, (Entry.directory es).child? n = some c ∧
        let inner := Level.ofDirectory place.length (.directory es) :: levels
        isLeftOut inner (place ++ [n]) n c.isDirectory = false ∧
          ⟨names.foldl Files.Path.join (Files.Path.join path n), below ++ [n] ++ names⟩ ∈
            filesIn inner (place ++ [n]) (Files.Path.join path n) (below ++ [n]) c := by
  rw [filesIn, mem_filesAmong, List.append_cons below n names, List.foldl_cons]
  constructor
  · intro h
    obtain ⟨m, c, hc, hkept, hx⟩ := h
    obtain ⟨names', -, -, -, hlocated⟩ :=
      located_of_mem_filesIn (Entry.isProper_of_mem hproper hc).2 hx
    have hbelow := (FoundFile.mk.inj hlocated).2
    rw [List.append_assoc, List.append_assoc, List.append_cancel_left_eq, List.singleton_append,
      List.singleton_append, List.cons.injEq] at hbelow
    obtain ⟨rfl, -⟩ := hbelow
    exact ⟨c, (Entry.mem_iff_child? hproper).mp hc, hkept, hx⟩
  · intro h
    obtain ⟨c, hc, hkept, hx⟩ := h
    exact ⟨n, c, (Entry.mem_iff_child? hproper).mpr hc, hkept, hx⟩

/-- Where the same rules are, a file is found that is still there. -/
theorem mem_filesIn_of_rules (hrules : SameRules f f') {b b' : ByteArray} (hproper : e.isProper)
    (hproper' : e'.isProper) (he : f.root.descend? place = some e)
    (he' : f'.root.descend? place = some e') (hfile : e.descend? names = some (.file b))
    (hfile' : e'.descend? names = some (.file b'))
    (hx : ⟨names.foldl Files.Path.join path, below ++ names⟩ ∈ filesIn levels place path below e) :
    ⟨names.foldl Files.Path.join path, below ++ names⟩ ∈ filesIn levels place path below e' := by
  induction names generalizing place path levels below e e' with
  | nil =>
    rw [Option.some.inj hfile, filesIn] at hx
    rw [Option.some.inj hfile', filesIn]
    exact hx
  | cons n names ih =>
    cases e with
    | file c => cases hfile
    | directory es =>
      cases e' with
      | file c => cases hfile'
      | directory es' =>
        obtain ⟨c, hchild, hkept, hx⟩ := (mem_filesIn_cons hproper).mp hx
        obtain ⟨c', hchild', hfile_c'⟩ := Option.bind_eq_some_iff.mp hfile'
        have hfile_c : c.descend? names = some (.file b) := by
          rw [Entry.descend?_cons, hchild] at hfile
          exact hfile
        have hkind : c'.isDirectory = c.isDirectory := by
          rw [isDirectory_of_descend? hfile_c, isDirectory_of_descend? hfile_c']
        rw [← ofDirectory_congr hrules he he'] at hkept hx
        rw [← hkind] at hkept
        refine (mem_filesIn_cons hproper').mpr ⟨c', hchild', hkept, ?_⟩
        exact ih (Entry.isProper_of_child? hproper hchild).2
          (Entry.isProper_of_child? hproper' hchild').2 (Entry.descend?_concat he hchild)
          (Entry.descend?_concat he' hchild') hfile_c hfile_c' hx

mutual

private theorem nodup_filesIn : ∀ {e : Entry} (levels : List Level) (place : List String) (path : String)
    (below : List String), e.isProper → (filesIn levels place path below e).Nodup
  | .file b, _, _, _, _, _ => by simp [filesIn]
  | .directory es, _, _, _, _, h => nodup_filesAmong _ _ _ _ h

/-- No file is found twice. -/
theorem nodup_filesAmong : ∀ {es : List (String × Entry)} (levels : List Level)
    (place : List String) (path : String) (below : List String), Entry.areProper es →
      (filesAmong levels place path below es).Nodup
  | [], _, _, _, _, _ => List.nodup_nil
  | (n, c) :: es, levels, place, path, below, h => by
    obtain ⟨-, hfresh, hc, hes⟩ := Entry.areProper_cons.mp h
    rw [filesAmong, List.nodup_append]
    refine ⟨?_, nodup_filesAmong _ _ _ _ hes, ?_⟩
    · split
      · exact List.nodup_nil
      · exact nodup_filesIn _ _ _ _ hc
    · rintro x hx y hy rfl
      split at hx
      · cases hx
      · obtain ⟨names, -, -, -, hx⟩ := located_of_mem_filesIn hc hx
        obtain ⟨m, d, hd, names', -, -, -, hy⟩ := located_of_mem_filesAmong hes hy
        have hbelow := congrArg FoundFile.below (hx.symm.trans hy)
        simp only [List.append_assoc, List.append_cancel_left_eq, List.singleton_append,
          List.cons.injEq] at hbelow
        exact hfresh (List.mem_map.mpr ⟨(m, d), hd, hbelow.1.symm⟩)

end

variable {hidden : List String → Prop} {input : String} {exclusions : List Glob}
  {es' : List (String × Entry)}

private theorem isFile_of_mem_filesIn (hf : f.IsProper) (hplace : f.place? input = some place)
    (he : f.root.descend? place = some e) (hx : x ∈ filesIn levels place input [] e) :
    ∃ b, f.Holds (place ++ x.below) b ∧ f.place? x.path = some (place ++ x.below) := by
  have hproper := (Entry.isProper_descend? hf.root he).1
  obtain ⟨names, b, hfile, hnames, rfl⟩ := located_of_mem_filesIn hproper hx
  have hthere : f.Holds (place ++ names) b := by
    rw [Files.Holds, Entry.descend?_append, he]
    exact hfile
  refine ⟨b, hthere, Files.place?_foldl_join (Files.ne_empty_of_place? hplace) hplace hnames ?_⟩
  rw [show f.root.descend? (place ++ names) = _ from hthere]
  rfl

/-- Files that are found are told apart by the steps of their paths. -/
theorem path_inj (hne : input ≠ "") (hproper : e.isProper) {y : FoundFile}
    (hx : x ∈ filesIn levels place input below e) (hy : y ∈ filesIn levels place input below e)
    (h : steps x.path = steps y.path) : x = y := by
  obtain ⟨names, -, -, hnames, rfl⟩ := located_of_mem_filesIn hproper hx
  obtain ⟨names', -, -, hnames', rfl⟩ := located_of_mem_filesIn hproper hy
  rw [Files.Path.steps_foldl_join hne hnames, Files.Path.steps_foldl_join hne hnames',
    List.append_cancel_left_eq] at h
  rw [List.map_injective_iff.mpr (fun _ _ => Step.name.inj) h]

/-- The files of a directory that are kept as sources. -/
def keptIn (f : Files) (place : List String) (input : String) (exclusions : List Glob) (e : Entry) :
    List FoundFile :=
  (filesIn (Level.above f.root place) place input [] e).filter fun x =>
    isJava x.path && !exclusions.any (·.matches (Files.Path.joinSegments x.below))

theorem sourceFiles_directory (hplace : f.place? input = some place)
    (he : f.root.descend? place = some (.directory es)) :
    sourceFiles f input exclusions =
      .ok (((keptIn f place input exclusions (.directory es)).map FoundFile.path).mergeSort
        Files.Path.le) := by
  rw [sourceFiles, Files.entry?, hplace, Option.bind_some, he]
  rfl

private theorem sourceFiles_file {b : ByteArray} (hplace : f.place? input = some place)
    (hholds : f.Holds place b) : sourceFiles f input exclusions = .ok [input] := by
  rw [sourceFiles, Files.entry?, hplace, Option.bind_some, show f.root.descend? place = _ from hholds]

/-- A source is the input itself, or one of the files that are kept below it. -/
theorem of_mem_sourceFiles {sources : List String} {path : String}
    (h : sourceFiles f input exclusions = .ok sources) (hpath : path ∈ sources) :
    (∃ place b, f.place? input = some place ∧ f.Holds place b ∧ path = input) ∨
      ∃ place es, f.place? input = some place ∧ f.root.descend? place = some (.directory es) ∧
        ∃ x ∈ keptIn f place input exclusions (.directory es), x.path = path := by
  cases hplace : f.place? input with
  | none => simp [sourceFiles, hplace, Files.entry?] at h
  | some place =>
    cases he : f.root.descend? place with
    | none => simp [sourceFiles, hplace, Files.entry?, he] at h
    | some e =>
      cases e with
      | file b =>
        rw [sourceFiles_file hplace he] at h
        obtain rfl := Except.ok.inj h
        exact .inl ⟨place, b, rfl, he, List.mem_singleton.mp hpath⟩
      | directory es =>
        rw [sourceFiles_directory hplace he] at h
        obtain rfl := Except.ok.inj h
        exact .inr ⟨place, es, rfl, he, List.mem_map.mp (List.mem_mergeSort.mp hpath)⟩

/-- All sources are files. -/
theorem holds_of_mem_sourceFiles (hf : f.IsProper) {sources : List String} {path : String}
    (h : sourceFiles f input exclusions = .ok sources) (hpath : path ∈ sources) :
    ∃ q b, f.place? path = some q ∧ f.Holds q b := by
  obtain ⟨place, b, hplace, hholds, rfl⟩ | ⟨place, es, hplace, he, x, hx, rfl⟩ := of_mem_sourceFiles h hpath
  · exact ⟨place, b, hplace, hholds⟩
  · obtain ⟨b, hholds, hxplace⟩ := isFile_of_mem_filesIn hf hplace he (List.mem_of_mem_filter hx)
    exact ⟨_, b, hxplace, hholds⟩

/-- The sources below a directory are named as Java files. -/
theorem destination_of_mem_sourceFiles (hf : f.IsProper) {sources : List String} {path : String}
    (hinput : f.isDirectory input) (h : sourceFiles f input exclusions = .ok sources)
    (hpath : path ∈ sources) : ∃ parent before, f.destination path = parent ++ [before ++ ".java"] := by
  obtain ⟨place, b, hplace, hholds, -⟩ | ⟨place, es, hplace, he, x, hx, rfl⟩ := of_mem_sourceFiles h hpath
  · rw [Files.Holds] at hholds
    rw [Files.isDirectory, Files.entry?, hplace, Option.bind_some, hholds] at hinput
    cases hinput
  · obtain ⟨hfound, hkept⟩ := List.mem_filter.mp hx
    obtain ⟨b, -, hxplace⟩ := isFile_of_mem_filesIn hf hplace he hfound
    obtain ⟨before, hname⟩ := Files.Path.fileName?_of_extension?
      (beq_iff_eq.mp (Bool.and_eq_true_iff.mp hkept).1)
    obtain ⟨parent, hparent, -⟩ := Files.place_of_fileName? hname hxplace
    refine ⟨parent, before, ?_⟩
    rw [← Files.eq_destination hxplace, hparent, String.append_assoc]
    rfl

/-- No source lies in a hidden place. -/
def SourcesSeen (hidden : List String → Prop) (f : Files) (input : String) (exclusions : List Glob) :
    Prop :=
  ∀ sources, sourceFiles f input exclusions = .ok sources → ∀ path ∈ sources,
    ¬hidden (f.destination path)

private theorem subset_keptIn (hrules : SameRules f f') (hf : f.IsProper) (hf' : f'.IsProper)
    (hholds : ∀ p b, ¬hidden p → f.Holds p b → f'.Holds p b)
    (hseen : SourcesSeen hidden f input exclusions) (hplace : f.place? input = some place)
    (he : f.root.descend? place = some (.directory es))
    (he' : f'.root.descend? place = some (.directory es'))
    (hx : x ∈ keptIn f place input exclusions (.directory es)) :
    x ∈ keptIn f' place input exclusions (.directory es') := by
  obtain ⟨hfound, hkept⟩ := List.mem_filter.mp hx
  obtain ⟨b, hthere, hxplace⟩ := isFile_of_mem_filesIn hf hplace he hfound
  have hsource : ¬hidden (f.destination x.path) :=
    hseen _ (sourceFiles_directory hplace he) x.path
      (List.mem_mergeSort.mpr (List.mem_map_of_mem hx))
  rw [← Files.eq_destination hxplace] at hsource
  have hthere' := hholds _ b hsource hthere
  have hproper := (Entry.isProper_descend? hf.root he).1
  have hproper' := (Entry.isProper_descend? hf'.root he').1
  obtain ⟨names, c, hfile, -, rfl⟩ := located_of_mem_filesIn hproper hfound
  have hfile' : (Entry.directory es').descend? names = some (.file b) := by
    rw [Files.Holds, Entry.descend?_append, he'] at hthere'
    exact hthere'
  refine List.mem_filter.mpr ⟨?_, hkept⟩
  rw [above_congr hrules he he']
  exact mem_filesIn_of_rules hrules hproper hproper' he he' hfile hfile' hfound

/-- The sources of an input are the same, in the same order, whatever lies in hidden places and whatever
directories were made. -/
theorem sourceFiles_congr (h : Extends hidden f f') (hf : f.IsProper) (hf' : f'.IsProper)
    (hrules : ∀ p, hidden p → ¬IsRulesAt p) (hseen : SourcesSeen hidden f input exclusions)
    (hseen' : SourcesSeen hidden f' input exclusions) (hexists : f.exists input) :
    sourceFiles f' input exclusions = sourceFiles f input exclusions := by
  obtain ⟨e, hentry⟩ := Option.isSome_iff_exists.mp hexists
  obtain ⟨place, hplace, he⟩ := Option.bind_eq_some_iff.mp hentry
  have hplace' := h.place? hplace
  have hsame : SameRules f f' := fun p b hp => h.holds p b fun hhide => hrules p hhide hp
  cases e with
  | file b =>
    have hfile : sourceFiles f input exclusions = .ok [input] := sourceFiles_file hplace he
    have hplain : ¬hidden place := by
      rw [Files.eq_destination hplace]
      exact hseen _ hfile input (List.mem_singleton_self input)
    rw [hfile, sourceFiles_file hplace' ((h.holds place b hplain).mpr he)]
  | directory es =>
    obtain ⟨es', he'⟩ := Files.isDirectoryAt_iff.mp
      (h.isDirectoryAt place (Files.isDirectoryAt_iff.mpr ⟨es, he⟩))
    have hproper := (Entry.isProper_descend? hf.root he).1
    have hproper' := (Entry.isProper_descend? hf'.root he').1
    have hperm : (keptIn f' place input exclusions (.directory es')).Perm
        (keptIn f place input exclusions (.directory es)) := by
      refine (List.perm_ext_iff_of_nodup ((nodup_filesIn _ _ _ _ hproper').filter _)
        ((nodup_filesIn _ _ _ _ hproper).filter _)).mpr fun x => ⟨fun hx => ?_, fun hx => ?_⟩
      · exact subset_keptIn hsame.symm hf' hf (fun p b hp => (h.holds p b hp).mp) hseen' hplace' he'
          he hx
      · exact subset_keptIn hsame hf hf' (fun p b hp => (h.holds p b hp).mpr) hseen hplace he he' hx
    rw [sourceFiles_directory hplace he, sourceFiles_directory hplace' he']
    refine congrArg Except.ok (Files.Path.mergeSort_congr (hperm.map _) fun a ha b hb hab => ?_)
    obtain ⟨x, hx, rfl⟩ := List.mem_map.mp ha
    obtain ⟨y, hy, rfl⟩ := List.mem_map.mp hb
    rw [path_inj (Files.ne_empty_of_place? hplace) hproper' (List.mem_of_mem_filter hx)
      (List.mem_of_mem_filter hy) hab]

theorem sourceFiles_of_not_exists (h : f.exists input = false) (exclusions : List Glob) :
    sourceFiles f input exclusions = .error (.missing input) := by
  have hentry : f.entry? input = none := by simpa [Files.exists] using h
  rw [sourceFiles, hentry]

/-- Packages start from a directory. -/
theorem exists_place_sourceRoot (hf : f.IsProper) (hexists : f.exists input) :
    ∃ place, f.place? (sourceRoot f input) = some place ∧ f.isDirectoryAt place := by
  have hdirectory : f.isDirectory (sourceRoot f input) := by
    rw [sourceRoot]
    split
    · rename_i hinput
      exact hinput
    · cases hparent : (Files.Path.parent? input).filter (· != "") with
      | none =>
        rw [Option.getD_none, Files.isDirectory_iff (by decide)]
        refine ⟨f.workingDirectory, ?_, hf.workingDirectory⟩
        have hsteps : steps "." = [.here] := by decide
        simp [hsteps, Files.follow, hf.workingDirectory]
      | some parent =>
        obtain ⟨e, hentry⟩ := Option.isSome_iff_exists.mp hexists
        obtain ⟨place, hplace, -⟩ := Option.bind_eq_some_iff.mp hentry
        obtain ⟨hparent, hne⟩ := Option.filter_eq_some_iff.mp hparent
        exact Files.isDirectory_of_parent? hparent (bne_iff_ne.mp hne) hplace
  have hne : sourceRoot f input ≠ "" := by
    intro hempty
    rw [hempty] at hdirectory
    cases hdirectory
  obtain ⟨place, hsteps, hplace⟩ := (Files.isDirectory_iff hne).mp hdirectory
  exact ⟨place, Files.place?_of_foldlM_follow hne hsteps hplace, hplace⟩

theorem sourceRoot_congr (h : Extends hidden f f') (hseen : SourcesSeen hidden f input exclusions)
    (hexists : f.exists input) : sourceRoot f' input = sourceRoot f input := by
  obtain ⟨e, hentry⟩ := Option.isSome_iff_exists.mp hexists
  obtain ⟨place, hplace, he⟩ := Option.bind_eq_some_iff.mp hentry
  have hdirectory : f'.isDirectory input = f.isDirectory input := by
    rw [Files.isDirectory, Files.isDirectory, Files.entry?, Files.entry?, h.place? hplace, hplace,
      Option.bind_some, Option.bind_some, he]
    cases e with
    | file b =>
      have hplain : ¬hidden place := by
        rw [Files.eq_destination hplace]
        exact hseen _ (sourceFiles_file hplace he) input (List.mem_singleton_self input)
      rw [show f'.root.descend? place = _ from (h.holds place b hplain).mpr he]
    | directory es => exact h.isDirectoryAt place (Files.isDirectoryAt_iff.mpr ⟨es, he⟩)
  rw [sourceRoot, sourceRoot, hdirectory]

end StructureGraph.Input
