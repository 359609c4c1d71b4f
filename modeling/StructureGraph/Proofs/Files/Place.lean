import StructureGraph.Proofs.Files.Content
import StructureGraph.Proofs.Files.Path

namespace StructureGraph.Files

open StructureGraph.Text (segments)
open StructureGraph.Files.Path (IsName EndsInName Step steps stepsAfter stepsOf)

variable {f f' : Files} {place q : List String} {base path n s : String}
  {ss names : List String}

/-- Make a step, which is possible from directories only. -/
def follow (f : Files) (place : List String) : Step → Option (List String)
  | .root => some []
  | .here => if f.isDirectoryAt place then some place else none
  | .up => if f.isDirectoryAt place then some place.dropLast else none
  | .name n => if f.isDirectoryAt place then some (place ++ [n]) else none

private theorem enter_eq_follow {step : Step} (h : Path.step? true s = some step) (place : List String) :
    f.enter place s = f.follow place step := by
  unfold Path.step? at h
  split at h
  · cases h
  · obtain rfl := Option.some.inj h
    simp [enter, follow]
  · obtain rfl := Option.some.inj h
    simp [enter, follow]
  · rename_i hempty hhere hup
    obtain rfl := Option.some.inj h
    have hne : ¬(s = "" ∨ s = ".") := not_or.mpr ⟨hempty, hhere⟩
    simp only [enter, follow, if_neg hne, if_neg (show ¬s = ".." from hup)]

private theorem step?_true_of_false {step : Step} (h : Path.step? false s = some step) :
    Path.step? true s = some step := by
  unfold Path.step? at h ⊢
  split <;> simp_all

private theorem enter_of_step?_eq_none (h : Path.step? false s = none) (place : List String) :
    f.enter place s = if f.isDirectoryAt place then some place else none := by
  have hs : s = "" ∨ s = "." := by
    unfold Path.step? at h
    split at h <;> simp_all
  simp [enter, hs]

/-- Segments lead nowhere else than their steps. -/
theorem foldlM_follow_of_enter (h : ss.foldlM f.enter place = some q) :
    (stepsAfter ss).foldlM f.follow place = some q := by
  induction ss generalizing place with
  | nil => exact h
  | cons s ss ih =>
    rw [List.foldlM_cons] at h
    obtain ⟨next, hnext, hrest⟩ := Option.bind_eq_some_iff.mp h
    cases hstep : Path.step? false s with
    | none =>
      rw [enter_of_step?_eq_none hstep] at hnext
      split at hnext
      · obtain rfl := Option.some.inj hnext
        rw [stepsAfter, List.filterMap_cons_none hstep]
        exact ih hrest
      · cases hnext
    | some step =>
      rw [enter_eq_follow (step?_true_of_false hstep)] at hnext
      rw [stepsAfter, List.filterMap_cons_some hstep, List.foldlM_cons, hnext]
      exact ih hrest

private theorem isDirectoryAt_of_foldlM_follow {steps : List Step} (hroot : Step.root ∉ steps)
    (h : steps.foldlM f.follow place = some q) (hq : f.isDirectoryAt q) : f.isDirectoryAt place := by
  cases steps with
  | nil => rwa [Option.some.inj h]
  | cons step steps =>
    rw [List.foldlM_cons] at h
    obtain ⟨next, hnext, -⟩ := Option.bind_eq_some_iff.mp h
    by_contra hplace
    cases step with
    | root => simp at hroot
    | here | up | name n => simp [follow, hplace] at hnext

/-- Segments lead to a directory where their steps do: those that mean nothing ask for a directory, as
the steps that follow them do. -/
theorem foldlM_enter_of_follow (h : (stepsAfter ss).foldlM f.follow place = some q)
    (hq : f.isDirectoryAt q) : ss.foldlM f.enter place = some q := by
  induction ss generalizing place with
  | nil => exact h
  | cons s ss ih =>
    rw [List.foldlM_cons]
    cases hstep : Path.step? false s with
    | none =>
      rw [stepsAfter, List.filterMap_cons_none hstep] at h
      have hplace := isDirectoryAt_of_foldlM_follow (Path.root_not_mem_stepsAfter ss) h hq
      rw [enter_of_step?_eq_none hstep, if_pos hplace]
      exact ih h
    | some step =>
      rw [stepsAfter, List.filterMap_cons_some hstep, List.foldlM_cons] at h
      obtain ⟨next, hnext, hrest⟩ := Option.bind_eq_some_iff.mp h
      rw [enter_eq_follow (step?_true_of_false hstep), hnext]
      exact ih hrest

theorem ne_empty_of_place? (h : f.place? path = some q) : path ≠ "" := by
  rintro rfl
  cases h

/-- A path and its steps start alike and differ in how they go on. -/
theorem exists_start (h : path ≠ "") (f : Files) :
    ∃ s ss start, segments '/' path = s :: ss ∧ (s ≠ "" → start = f.enter f.workingDirectory s) ∧
      f.place? path = start.bind (fun place => ss.foldlM f.enter place) ∧
      (steps path).foldlM f.follow f.workingDirectory =
        start.bind fun place => (stepsAfter ss).foldlM f.follow place := by
  cases hs : segments '/' path with
  | nil => exact (Text.segments_ne_nil path hs).elim
  | cons s ss =>
    rw [place?, if_neg h, Path.steps_eq_stepsOf h, hs, stepsOf]
    by_cases hempty : s = ""
    · have habsolute : Path.isAbsolute path := by
        by_contra hrelative
        exact h (Path.eq_empty_of_segments (by simpa using hrelative) (hempty ▸ hs))
      refine ⟨s, ss, some [], rfl, fun hne => (hne hempty).elim, ?_, ?_⟩
      · rw [if_pos habsolute]
        rfl
      · rw [if_pos hempty]
        rfl
    · have hrelative : Path.isAbsolute path = false := by
        by_contra habsolute
        obtain ⟨rest, hrest⟩ := @Path.segments_of_isAbsolute path (by simpa using habsolute)
        exact hempty (List.cons.inj (hs.symm.trans hrest)).1
      obtain ⟨step, hstep⟩ : ∃ step, Path.step? true s = some step := by
        unfold Path.step?
        split <;> simp_all
      refine ⟨s, ss, f.enter f.workingDirectory s, rfl, fun _ => rfl, ?_, ?_⟩
      · simp [hrelative]
      · rw [if_neg hempty, hstep, Option.toList_some, List.singleton_append, List.foldlM_cons,
          enter_eq_follow hstep]
        rfl

/-- A path leads nowhere else than its steps. -/
theorem foldlM_follow_of_place? (h : f.place? path = some q) :
    (steps path).foldlM f.follow f.workingDirectory = some q := by
  obtain ⟨s, ss, start, -, -, hplace, hsteps⟩ := exists_start (ne_empty_of_place? h) f
  rw [hplace] at h
  obtain ⟨place, hstart, hrest⟩ := Option.bind_eq_some_iff.mp h
  rw [hsteps, hstart]
  exact foldlM_follow_of_enter hrest

/-- A path leads to a directory where its steps do. -/
theorem place?_of_foldlM_follow (hne : path ≠ "")
    (h : (steps path).foldlM f.follow f.workingDirectory = some q) (hq : f.isDirectoryAt q) :
    f.place? path = some q := by
  obtain ⟨s, ss, start, -, -, hplace, hsteps⟩ := exists_start hne f
  rw [hsteps] at h
  obtain ⟨place, hstart, hrest⟩ := Option.bind_eq_some_iff.mp h
  rw [hplace, hstart]
  exact foldlM_enter_of_follow hrest hq

/-- Segments up to a name lead where their steps lead. -/
theorem foldlM_enter_append_name (hn : IsName n) (before : List String) (place : List String) :
    (before ++ [n]).foldlM f.enter place = (stepsAfter (before ++ [n])).foldlM f.follow place := by
  have hname (next : List String) : [n].foldlM f.enter next = [Step.name n].foldlM f.follow next := by
    rw [List.foldlM_cons, List.foldlM_cons, enter_eq_follow (hn.step? true)]
    rfl
  rw [Path.stepsAfter_append_name hn, List.foldlM_append, List.foldlM_append]
  cases hbefore : (stepsAfter before).foldlM f.follow place with
  | none =>
    cases henter : before.foldlM f.enter place with
    | none => rfl
    | some next =>
      rw [foldlM_follow_of_enter henter] at hbefore
      cases hbefore
  | some next =>
    cases hnext : f.isDirectoryAt next with
    | true =>
      rw [foldlM_enter_of_follow hbefore hnext]
      exact hname next
    | false =>
      have hnone : [Step.name n].foldlM f.follow next = none := by simp [follow, hnext]
      cases henter : before.foldlM f.enter place with
      | none => exact hnone.symm
      | some next' =>
        obtain rfl : next = next' :=
          Option.some.inj (hbefore.symm.trans (foldlM_follow_of_enter henter))
        exact hname next

/-- A path that ends in a name leads where its steps lead. -/
theorem place?_eq_foldlM (h : EndsInName path) (f : Files) :
    f.place? path = (steps path).foldlM f.follow f.workingDirectory := by
  obtain ⟨before, n, hsegments, hn⟩ := id h
  obtain ⟨s, ss, start, hs, hstart, hplace, hsteps⟩ := exists_start h.ne_empty f
  rw [hplace, hsteps]
  refine congrArg _ (funext fun place => ?_)
  rcases List.eq_nil_or_concat ss with rfl | ⟨before', n', rfl⟩
  · rfl
  · have hlast : n' = n := by
      have heq := congrArg List.getLast? (hs.symm.trans hsegments)
      rw [List.concat_eq_append, ← List.cons_append, List.getLast?_concat,
        List.getLast?_concat] at heq
      exact Option.some.inj heq
    rw [List.concat_eq_append, hlast]
    exact foldlM_enter_append_name hn before' place

/-- Paths of the same steps are one to who reads files. -/
theorem place?_congr_steps {path' : String} (h : EndsInName path) (h' : EndsInName path')
    (hsteps : steps path = steps path') (f : Files) : f.place? path = f.place? path' := by
  rw [place?_eq_foldlM h, place?_eq_foldlM h', hsteps]

theorem isDirectoryAt_iff : f.isDirectoryAt place ↔ ∃ es, f.root.descend? place = some (.directory es) := by
  rw [isDirectoryAt]
  cases f.root.descend? place with
  | none => simp
  | some e => cases e <;> simp [Entry.isDirectory, Entry.isFile]

/-- What has something in it is a directory. -/
theorem isDirectoryAt_of_descend? {e : Entry} (h : f.root.descend? (place ++ q) = some e)
    (hq : q ≠ []) : f.isDirectoryAt place := by
  rw [Entry.descend?_append] at h
  obtain ⟨c, hc, hrest⟩ := Option.bind_eq_some_iff.mp h
  cases c with
  | directory es => exact isDirectoryAt_iff.mpr ⟨es, hc⟩
  | file b =>
    cases q with
    | nil => exact (hq rfl).elim
    | cons n q => cases hrest

theorem isDirectoryAt_of_append (h : f.isDirectoryAt (place ++ q)) : f.isDirectoryAt place := by
  by_cases hq : q = []
  · rwa [hq, List.append_nil] at h
  · obtain ⟨es, hes⟩ := isDirectoryAt_iff.mp h
    exact isDirectoryAt_of_descend? hes hq

/-- Names lead to what is below a place. -/
theorem eq_of_foldlM_follow_names (h : (names.map Step.name).foldlM f.follow place = some q) :
    q = place ++ names := by
  induction names generalizing place with
  | nil => simpa [eq_comm] using h
  | cons n names ih =>
    rw [List.map_cons, List.foldlM_cons] at h
    obtain ⟨next, hnext, hrest⟩ := Option.bind_eq_some_iff.mp h
    rw [follow] at hnext
    split at hnext
    · rw [ih hrest, ← Option.some.inj hnext, List.append_assoc, List.singleton_append]
    · cases hnext

theorem foldlM_follow_names (h : (f.root.descend? (place ++ names)).isSome) :
    (names.map Step.name).foldlM f.follow place = some (place ++ names) := by
  induction names generalizing place with
  | nil => simp
  | cons n names ih =>
    obtain ⟨e, he⟩ := Option.isSome_iff_exists.mp h
    have hplace : f.isDirectoryAt place := isDirectoryAt_of_descend? he (by simp)
    rw [List.append_cons] at h ⊢
    rw [List.map_cons, List.foldlM_cons, follow, if_pos hplace]
    exact ih h

private theorem place?_join_name (hbase : base ≠ "") (hn : IsName n) (f : Files) :
    f.place? (Path.join base n) = (f.place? base).bind fun place => f.follow place (.name n) := by
  rw [place?_eq_foldlM (hn.endsInName.join base), Path.steps_join_name hbase hn, List.foldlM_append]
  cases hsteps : (steps base).foldlM f.follow f.workingDirectory with
  | none =>
    cases hplace : f.place? base with
    | none => rfl
    | some place =>
      rw [foldlM_follow_of_place? hplace] at hsteps
      cases hsteps
  | some next =>
    have hname : [Step.name n].foldlM f.follow next = f.follow next (.name n) := by
      rw [List.foldlM_cons]
      cases f.follow next (.name n) <;> rfl
    show [Step.name n].foldlM f.follow next = _
    rw [hname]
    cases hnext : f.isDirectoryAt next with
    | true =>
      rw [place?_of_foldlM_follow hbase hsteps hnext]
      rfl
    | false =>
      cases hplace : f.place? base with
      | none => simp [follow, hnext]
      | some place =>
        rw [Option.some.inj (hsteps.symm.trans (foldlM_follow_of_place? hplace))]
        rfl

/-- Names lead from a path to what is below its place. -/
theorem place?_foldl_join (hne : path ≠ "") (hplace : f.place? path = some place)
    (hnames : ∀ n ∈ names, IsName n) (h : (f.root.descend? (place ++ names)).isSome) :
    f.place? (names.foldl Path.join path) = some (place ++ names) := by
  induction names generalizing place path with
  | nil => rwa [List.append_nil]
  | cons n names ih =>
    obtain ⟨hn, hnames⟩ := List.forall_mem_cons.mp hnames
    obtain ⟨e, he⟩ := Option.isSome_iff_exists.mp h
    have hdirectory : f.isDirectoryAt place := isDirectoryAt_of_descend? he (by simp)
    have hnext : f.place? (Path.join path n) = some (place ++ [n]) := by
      rw [place?_join_name hne hn, hplace, Option.bind_some, follow, if_pos hdirectory]
    rw [List.append_cons] at h ⊢
    exact ih (Path.join_ne_empty hne n) hnext hnames h

/-- A file name is the last name of the place to which its path leads. -/
theorem place_of_fileName? (hname : Path.fileName? path = some n) (h : f.place? path = some q) :
    ∃ parent, q = parent ++ [n] ∧ f.isDirectoryAt parent := by
  have hsteps := foldlM_follow_of_place? h
  rw [Path.steps_of_fileName? hname, List.foldlM_append] at hsteps
  obtain ⟨parent, -, hlast⟩ := Option.bind_eq_some_iff.mp hsteps
  rw [List.foldlM_cons] at hlast
  obtain ⟨last, hfollow, hq⟩ := Option.bind_eq_some_iff.mp hlast
  rw [follow] at hfollow
  split at hfollow
  · rename_i hparent
    refine ⟨parent, ?_, hparent⟩
    rw [← Option.some.inj hq, ← Option.some.inj hfollow]
  · cases hfollow

theorem exists_place_of_isDirectory (h : f.isDirectory path) :
    ∃ q, f.place? path = some q ∧ f.isDirectoryAt q := by
  rw [isDirectory, entry?] at h
  cases hplace : f.place? path with
  | none => simp [hplace] at h
  | some q =>
    rw [hplace] at h
    exact ⟨q, rfl, h⟩

/-- A path to a directory is known by its steps. -/
theorem isDirectory_iff (hne : path ≠ "") : f.isDirectory path ↔
    ∃ q, (steps path).foldlM f.follow f.workingDirectory = some q ∧ f.isDirectoryAt q := by
  constructor
  · intro h
    obtain ⟨q, hplace, hq⟩ := exists_place_of_isDirectory h
    exact ⟨q, foldlM_follow_of_place? hplace, hq⟩
  · intro hexists
    obtain ⟨q, hsteps, hq⟩ := hexists
    rw [isDirectory, entry?, place?_of_foldlM_follow hne hsteps hq]
    exact hq

theorem isDirectory_congr_steps {path' : String} (h : path ≠ "") (h' : path' ≠ "")
    (hsteps : steps path = steps path') (f : Files) : f.isDirectory path = f.isDirectory path' := by
  rw [Bool.eq_iff_iff, isDirectory_iff h, isDirectory_iff h', hsteps]

/-- What has a path has a directory before its last step. -/
theorem isDirectory_of_parent? {parent : String} (h : Path.parent? path = some parent)
    (hne : parent ≠ "") (hplace : f.place? path = some q) : f.isDirectory parent := by
  obtain ⟨step, hkind, hsteps⟩ := Path.steps_of_parent? h hne
  have hfollow := foldlM_follow_of_place? hplace
  rw [hsteps, List.foldlM_append] at hfollow
  obtain ⟨next, hnext, hlast⟩ := Option.bind_eq_some_iff.mp hfollow
  refine (isDirectory_iff hne).mpr ⟨next, hnext, ?_⟩
  by_contra hdirectory
  rcases hkind with rfl | ⟨n, rfl⟩ <;> simp [List.foldlM_cons, follow, hdirectory] at hlast

def move (place : List String) : Step → List String
  | .root => []
  | .here => place
  | .up => place.dropLast
  | .name n => place ++ [n]

def destination (f : Files) (path : String) : List String :=
  (steps path).foldl move f.workingDirectory

private theorem eq_of_foldlM_follow {steps : List Step} (h : steps.foldlM f.follow place = some q) :
    q = steps.foldl move place := by
  induction steps generalizing place with
  | nil => simpa [eq_comm] using h
  | cons step steps ih =>
    rw [List.foldlM_cons] at h
    obtain ⟨next, hnext, hrest⟩ := Option.bind_eq_some_iff.mp h
    have hmove : next = move place step := by
      cases step with
      | root => exact (Option.some.inj hnext).symm
      | here | up | name n =>
        simp only [follow] at hnext
        split at hnext
        · exact (Option.some.inj hnext).symm
        · cases hnext
    rw [List.foldl_cons, ← hmove]
    exact ih hrest

theorem eq_destination (h : f.place? path = some q) : q = f.destination path :=
  eq_of_foldlM_follow (foldlM_follow_of_place? h)

theorem foldl_move_names (place names : List String) :
    (names.map Step.name).foldl move place = place ++ names := by
  induction names generalizing place with
  | nil => simp
  | cons n names ih =>
    rw [List.map_cons, List.foldl_cons, ih, List.append_cons]
    rfl

/-- What is there, and below a place that is known, is where the path leads. -/
theorem place?_of_start {start : List Step} (h : EndsInName path)
    (hsteps : steps path = start ++ names.map .name)
    (hstart : start.foldlM f.follow f.workingDirectory = some place)
    (hthere : (f.root.descend? (f.destination path)).isSome) :
    f.place? path = some (f.destination path) := by
  have hdestination : f.destination path = place ++ names := by
    rw [destination, hsteps, List.foldl_append, ← eq_of_foldlM_follow hstart, foldl_move_names]
  rw [hdestination] at hthere ⊢
  rw [place?_eq_foldlM h, hsteps, List.foldlM_append, hstart]
  exact foldlM_follow_names hthere

section

variable (hdirectories : ∀ p, f.isDirectoryAt p → f'.isDirectoryAt p)

include hdirectories

private theorem foldlM_enter_mono (h : ss.foldlM f.enter place = some q) :
    ss.foldlM f'.enter place = some q := by
  induction ss generalizing place with
  | nil => exact h
  | cons s ss ih =>
    rw [List.foldlM_cons] at h ⊢
    obtain ⟨next, hnext, hrest⟩ := Option.bind_eq_some_iff.mp h
    have hnext' : f'.enter place s = some next := by
      rw [enter] at hnext ⊢
      split at hnext
      · rename_i hplace
        rwa [if_pos (hdirectories place hplace)]
      · cases hnext
    rw [hnext']
    exact ih hrest

/-- With more directories a path leads where it led. -/
theorem place?_mono (hwork : f'.workingDirectory = f.workingDirectory) (h : f.place? path = some q) :
    f'.place? path = some q := by
  rw [place?] at h ⊢
  split at h
  · cases h
  · rename_i hne
    rw [if_neg hne, hwork]
    split at h
    · rename_i habsolute
      rw [if_pos habsolute]
      exact foldlM_enter_mono hdirectories h
    · rename_i hrelative
      rw [if_neg hrelative]
      exact foldlM_enter_mono hdirectories h

end

end StructureGraph.Files
