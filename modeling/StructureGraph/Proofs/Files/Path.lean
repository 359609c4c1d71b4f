import Mathlib.Data.List.Lex
import Mathlib.Data.Prod.Lex
import StructureGraph.Files.Path
import StructureGraph.Proofs.Text.Segments

namespace StructureGraph.Files

open StructureGraph.Text (segments)

namespace Path

/-- A name that something in a directory can have. -/
structure IsName (s : String) : Prop where
  ne_empty : s ≠ ""
  ne_here : s ≠ "."
  ne_up : s ≠ ".."
  no_slash : '/' ∉ s.toList

/-- The last segment of the path is a name. -/
def EndsInName (path : String) : Prop := ∃ ss n, segments '/' path = ss ++ [n] ∧ IsName n

variable {base path parent extension n s : String} {ss ss' : List String}

theorem IsName.step? (h : IsName n) (first : Bool) : step? first n = some (.name n) := by
  unfold Path.step?
  split
  · exact (h.ne_empty rfl).elim
  · exact (h.ne_here rfl).elim
  · exact (h.ne_up rfl).elim
  · rfl

theorem stepsAfter_append_name (h : IsName n) (ss : List String) :
    stepsAfter (ss ++ [n]) = stepsAfter ss ++ [.name n] := by
  rw [stepsAfter, List.filterMap_append, List.filterMap_cons_some (h.step? false)]
  rfl

theorem root_not_mem_stepsAfter (ss : List String) : Step.root ∉ stepsAfter ss := by
  intro h
  obtain ⟨s, -, hs⟩ := List.mem_filterMap.mp h
  unfold Path.step? at hs
  split at hs <;> simp_all

private theorem isAbsolute_iff : isAbsolute path ↔ ∃ cs, path.toList = '/' :: cs := by
  rw [isAbsolute]
  cases path.toList with
  | nil => simp
  | cons c cs => simp

/-- The segments of an absolute path begin with an empty one. -/
theorem segments_of_isAbsolute (h : isAbsolute path) : ∃ ss, segments '/' path = "" :: ss := by
  obtain ⟨cs, hcs⟩ := isAbsolute_iff.mp h
  exact ⟨(Text.segmentsFrom '/' [] cs).map String.ofList, by simp [segments, hcs, Text.segmentsFrom]⟩

/-- Of all other paths only the empty one has an empty segment in front. -/
theorem eq_empty_of_segments (h : isAbsolute path = false) (hs : segments '/' path = "" :: ss) :
    path = "" := by
  have hpath := @Text.intercalate_segments '/' path
  rw [hs] at hpath
  by_cases hss : ss = []
  · rw [← hpath, hss]
    rfl
  · rw [String.intercalate_cons_of_ne_nil hss] at hpath
    have habsolute : isAbsolute path := by
      rw [← hpath, isAbsolute_iff]
      exact ⟨(String.intercalate (String.singleton '/') ss).toList, by simp⟩
    simp [h] at habsolute

private theorem steps_of_isAbsolute (h : isAbsolute path) (hs : segments '/' path = "" :: ss) :
    steps path = .root :: stepsAfter ss := by
  simp only [steps, hs, h, if_true]

private theorem steps_of_relative (h : s ≠ "") (hs : segments '/' path = s :: ss) :
    steps path = (step? true s).toList ++ stepsAfter ss := by
  rw [steps, hs]
  split
  · rename_i heq
    exact (h (List.cons.inj heq).1).elim
  · rename_i heq
    obtain ⟨rfl, rfl⟩ := List.cons.inj heq
    rfl
  · rename_i heq
    cases heq

/-- The steps of the segments of a path, which is not empty. -/
def stepsOf : List String → List Step
  | [] => []
  | s :: ss => (if s = "" then [.root] else (step? true s).toList) ++ stepsAfter ss

theorem stepsAfter_append (ss ss' : List String) :
    stepsAfter (ss ++ ss') = stepsAfter ss ++ stepsAfter ss' :=
  List.filterMap_append ..

theorem stepsOf_append (h : ss ≠ []) : stepsOf (ss ++ ss') = stepsOf ss ++ stepsAfter ss' := by
  cases ss with
  | nil => exact (h rfl).elim
  | cons s ss => rw [List.cons_append, stepsOf, stepsOf, stepsAfter_append, List.append_assoc]

theorem stepsOf_ne_nil (h : ss ≠ []) : stepsOf ss ≠ [] := by
  cases ss with
  | nil => exact (h rfl).elim
  | cons s ss =>
    intro hnil
    obtain ⟨hfirst, -⟩ := List.append_eq_nil_iff.mp hnil
    unfold step? at hfirst
    split at hfirst
    · cases hfirst
    · split at hfirst <;> simp_all

theorem steps_eq_stepsOf (h : path ≠ "") : steps path = stepsOf (segments '/' path) := by
  cases hs : segments '/' path with
  | nil => exact (Text.segments_ne_nil path hs).elim
  | cons s ss =>
    rw [stepsOf]
    split
    · rename_i hempty
      rw [hempty] at hs
      cases habsolute : isAbsolute path with
      | true => exact steps_of_isAbsolute habsolute hs
      | false => exact (h (eq_empty_of_segments habsolute hs)).elim
    · rename_i hne
      exact steps_of_relative hne hs

theorem steps_append (hbase : base ≠ "") (h : segments '/' path = segments '/' base ++ ss) :
    steps path = steps base ++ stepsAfter ss := by
  have hpath : path ≠ "" := by
    rintro rfl
    have hempty : segments '/' "" = [""] := rfl
    rw [hempty, eq_comm, List.append_eq_singleton_iff] at h
    rcases h with ⟨h, -⟩ | ⟨h, -⟩
    · exact Text.segments_ne_nil base h
    · have hback := @Text.intercalate_segments '/' base
      rw [h] at hback
      exact hbase hback.symm
  rw [steps_eq_stepsOf hpath, h, stepsOf_append (Text.segments_ne_nil base), steps_eq_stepsOf hbase]

theorem join_ne_empty (hbase : base ≠ "") (path : String) : join base path ≠ "" := by
  have hne : ∀ s t : String, s ≠ "" → s ++ t ≠ "" :=
    fun s t hs h => hs (String.append_eq_empty_iff.mp h).1
  rw [join]
  split
  · rename_i h
    rintro rfl
    simp [hbase, isAbsolute] at h
  · split
    · exact hne _ _ hbase
    · exact hne _ _ (hne _ _ hbase)

theorem foldl_join_ne_empty (hbase : base ≠ "") (ss : List String) : ss.foldl join base ≠ "" := by
  induction ss generalizing base with
  | nil => exact hbase
  | cons s ss ih => exact ih (join_ne_empty hbase s)

/-- The steps of a path that goes on from another come after those of the other. -/
theorem steps_join (hbase : base ≠ "") (hpath : isAbsolute path = false) :
    steps (join base path) = steps base ++ stepsAfter (segments '/' path) := by
  rw [join, if_neg (by simp [hpath, hbase])]
  split
  · rename_i hlast
    obtain ⟨before, hbefore⟩ := List.getLast?_eq_some_iff.mp (beq_iff_eq.mp hlast)
    have hsplit : base = String.ofList before ++ String.singleton '/' := by
      rw [← String.toList_inj]
      simp [hbefore]
    have hends : segments '/' base = segments '/' (String.ofList before) ++ [""] := by
      have hempty := @Text.segments_join '/' (String.ofList before) ""
      rw [String.append_empty, ← hsplit] at hempty
      exact hempty
    have hjoined : segments '/' (base ++ path) =
        segments '/' (String.ofList before) ++ segments '/' path := by
      rw [hsplit, Text.segments_join]
    have hne : base ++ path ≠ "" := fun h => hbase (String.append_eq_empty_iff.mp h).1
    have hnothing : stepsAfter [""] = [] := rfl
    rw [steps_eq_stepsOf hne, steps_eq_stepsOf hbase, hends, hjoined,
      stepsOf_append (Text.segments_ne_nil _), stepsOf_append (Text.segments_ne_nil _), hnothing,
      List.append_nil]
  · exact steps_append hbase (Text.segments_join base path)

private theorem IsName.not_isAbsolute (h : IsName n) : isAbsolute n = false := by
  by_contra hn
  obtain ⟨cs, hcs⟩ := isAbsolute_iff.mp (by simpa using hn)
  exact h.no_slash (by simp [hcs])

theorem steps_join_name (hbase : base ≠ "") (hn : IsName n) :
    steps (join base n) = steps base ++ [.name n] := by
  rw [steps_join hbase hn.not_isAbsolute, Text.segments_of_not_mem hn.no_slash]
  exact congrArg _ (stepsAfter_append_name hn [])

theorem steps_foldl_join {names : List String} (hbase : base ≠ "") (h : ∀ n ∈ names, IsName n) :
    steps (names.foldl join base) = steps base ++ names.map .name := by
  induction names generalizing base with
  | nil => simp
  | cons n names ih =>
    obtain ⟨hn, hnames⟩ := List.forall_mem_cons.mp h
    rw [List.foldl_cons, ih (join_ne_empty hbase n) hnames, steps_join_name hbase hn,
      List.append_assoc, List.map_cons, List.singleton_append]

private theorem step?_true_eq_some_name (h : step? true s = some (.name n)) :
    step? false s = some (.name n) := by
  unfold step? at h ⊢
  split <;> simp_all

private theorem isName_of_step? (hs : '/' ∉ s.toList) (h : step? false s = some (.name n)) : IsName n := by
  unfold step? at h
  split at h
  · cases h
  · cases h
  · cases h
  · rename_i hempty hhere hup
    obtain rfl := Step.name.inj (Option.some.inj h)
    exact ⟨hempty, hhere, hup, hs⟩

private theorem isName_of_mem_stepsAfter (hss : ∀ s ∈ ss, '/' ∉ s.toList) (h : .name n ∈ stepsAfter ss) :
    IsName n := by
  obtain ⟨s, hs, hstep⟩ := List.mem_filterMap.mp h
  exact isName_of_step? (hss s hs) hstep

/-- Names on a path are names that something in a directory can have. -/
theorem isName_of_mem_steps (h : .name n ∈ steps path) : IsName n := by
  have hne : path ≠ "" := by
    rintro rfl
    cases h
  have hslash : ∀ s ∈ segments '/' path, '/' ∉ s.toList := fun s hs =>
    Text.not_mem_of_mem_segments hs
  rw [steps_eq_stepsOf hne] at h
  cases hs : segments '/' path with
  | nil => exact (Text.segments_ne_nil path hs).elim
  | cons s ss =>
    rw [hs] at hslash h
    obtain ⟨hhead, hrest⟩ := List.forall_mem_cons.mp hslash
    rw [stepsOf, List.mem_append] at h
    rcases h with h | h
    · split at h
      · cases List.mem_singleton.mp h
      · exact isName_of_step? hhead (step?_true_eq_some_name (Option.mem_toList.mp h))
    · exact isName_of_mem_stepsAfter hrest h

/-- Segments that mean nothing where they stand. -/
def MeansNothing (ss : List String) : Prop := ∀ s ∈ ss, s = "" ∨ s = "."

theorem MeansNothing.stepsAfter (h : MeansNothing ss) : stepsAfter ss = [] := by
  rw [Path.stepsAfter, List.filterMap_eq_nil_iff]
  intro s hs
  rcases h s hs with rfl | rfl <;> rfl

theorem MeansNothing.reverse (h : MeansNothing ss) : MeansNothing ss.reverse :=
  fun s hs => h s (List.mem_reverse.mp hs)

/-- What is trimmed means nothing; what stays begins with something, or is a single segment. -/
theorem exists_trimReversed (hss : ss ≠ []) :
    ∃ trimmed, MeansNothing trimmed ∧ ss = trimmed ++ trimReversed ss ∧ trimReversed ss ≠ [] ∧
      ∀ s s' rest, trimReversed ss = s :: s' :: rest → s ≠ "" ∧ s ≠ "." := by
  fun_induction trimReversed ss with
  | case1 => exact (hss rfl).elim
  | case2 s => exact ⟨[], nofun, rfl, by simp, nofun⟩
  | case3 s ss hne hnothing ih =>
    obtain ⟨trimmed, htrimmed, hsplit, hrest⟩ := ih (by rintro rfl; exact hne rfl)
    exact ⟨s :: trimmed, List.forall_mem_cons.mpr ⟨hnothing, htrimmed⟩, congrArg _ hsplit, hrest⟩
  | case4 s ss hne hsomething =>
    refine ⟨[], nofun, rfl, by simp, fun s₁ s' rest heq => ?_⟩
    rw [← (List.cons.inj heq).1]
    exact not_or.mp hsomething

/-- The segments of a path are those that its reversed ones keep, and some that mean nothing. -/
theorem segments_eq_of_reversed (h : reversed path = s :: ss) :
    ∃ nothing, MeansNothing nothing ∧ segments '/' path = ss.reverse ++ s :: nothing := by
  obtain ⟨trimmed, htrimmed, hsplit, -, -⟩ :=
    @exists_trimReversed (segments '/' path).reverse (by simp [Text.segments_ne_nil])
  refine ⟨trimmed.reverse, htrimmed.reverse, ?_⟩
  rw [reversed] at h
  rw [h] at hsplit
  rw [← List.reverse_reverse (segments '/' path), hsplit]
  simp

private theorem exists_reversed (path : String) : ∃ s ss, reversed path = s :: ss := by
  obtain ⟨-, -, -, hne, -⟩ :=
    @exists_trimReversed (segments '/' path).reverse (by simp [Text.segments_ne_nil])
  exact List.exists_cons_of_ne_nil hne

private theorem step?_of_reversed {s' : String} (h : reversed path = s :: s' :: ss) :
    ∃ step, step? false s = some step ∧ (step = .up ∨ ∃ n, step = .name n) := by
  obtain ⟨-, -, -, -, hfirst⟩ :=
    @exists_trimReversed (segments '/' path).reverse (by simp [Text.segments_ne_nil])
  obtain ⟨hempty, hhere⟩ := hfirst s s' ss h
  unfold step?
  split
  · exact (hempty rfl).elim
  · exact (hhere rfl).elim
  · exact ⟨_, rfl, .inl rfl⟩
  · exact ⟨_, rfl, .inr ⟨s, rfl⟩⟩

private theorem steps_joinSegments (hne : ss ≠ []) (hss : ∀ s ∈ ss, '/' ∉ s.toList)
    (hpath : joinSegments ss ≠ "") : steps (joinSegments ss) = stepsOf ss := by
  have hslash : String.singleton '/' = "/" := rfl
  have hsegments : segments '/' (joinSegments ss) = ss := by
    rw [joinSegments, ← hslash]
    exact Text.segments_intercalate hne hss
  rw [steps_eq_stepsOf hpath, hsegments]

private theorem exists_of_parent? (h : parent? path = some parent) :
    ∃ s ss, reversed path = s :: ss ∧ ofReversed (isAbsolute path) ss = parent := by
  rw [parent?] at h
  split at h
  · cases h
  · cases h
  · rename_i s ss _ hreversed
    exact ⟨s, ss, hreversed, Option.some.inj h⟩

private theorem steps_of_ofReversed {absolute : Bool} (hne : trimReversed ss ≠ [])
    (hss : ∀ s ∈ trimReversed ss, '/' ∉ s.toList) (h : ofReversed absolute ss = path) (hpath : path ≠ "") :
    steps path = stepsOf (trimReversed ss).reverse := by
  rw [ofReversed] at h
  split at h
  · rename_i hroot
    split at h
    · rw [← h, hroot]
      rfl
    · exact (hpath h.symm).elim
  · rw [← h] at hpath ⊢
    exact steps_joinSegments (by simpa using hne) (fun s hs => hss s (List.mem_reverse.mp hs)) hpath

/-- A path has one step more than its parent. -/
theorem steps_of_parent? (h : parent? path = some parent) (hparent : parent ≠ "") :
    ∃ step, (step = .up ∨ ∃ n, step = .name n) ∧ steps path = steps parent ++ [step] := by
  have hpath : path ≠ "" := by
    rintro rfl
    cases h
  obtain ⟨s, ss, hreversed, hdirectory⟩ := exists_of_parent? h
  cases ss with
  | nil => exact (hparent hdirectory.symm).elim
  | cons s' ss =>
    obtain ⟨step, hstep, hkind⟩ := step?_of_reversed hreversed
    obtain ⟨nothing, hnothing, hsegments⟩ := segments_eq_of_reversed hreversed
    obtain ⟨trimmed, htrimmed, hsplit, hne, -⟩ := @exists_trimReversed (s' :: ss) (by simp)
    have hslash : ∀ t ∈ trimReversed (s' :: ss), '/' ∉ t.toList := by
      intro t ht
      refine Text.not_mem_of_mem_segments (s := path) ?_
      rw [hsegments, hsplit]
      simp [ht]
    have hsteps := steps_of_ofReversed hne hslash hdirectory hparent
    have hlast : stepsAfter (s :: nothing) = [step] := by
      rw [stepsAfter, List.filterMap_cons_some hstep, ← stepsAfter, hnothing.stepsAfter]
    refine ⟨step, hkind, ?_⟩
    rw [steps_eq_stepsOf hpath, hsegments, hsplit, List.reverse_append, List.append_assoc,
      stepsOf_append (by simpa using hne), stepsAfter_append, htrimmed.reverse.stepsAfter,
      List.nil_append, hlast, hsteps]

theorem joinSegments_eq_empty (hne : ss ≠ []) (h : joinSegments ss = "") : ss = [""] := by
  cases ss with
  | nil => exact (hne rfl).elim
  | cons s ss =>
    by_cases hnil : ss = []
    · rw [joinSegments, hnil, String.intercalate_singleton] at h
      rw [h, hnil]
    · rw [joinSegments, String.intercalate_cons_of_ne_nil hnil, String.append_eq_empty_iff,
        String.append_eq_empty_iff] at h
      exact absurd h.1.2 (by decide)

theorem ofReversed_eq_empty {absolute : Bool} (hss : ss ≠ []) (h : ofReversed absolute ss = "") :
    absolute = false ∧ trimReversed ss = [""] := by
  rw [ofReversed] at h
  split at h
  · rename_i htrimmed
    split at h
    · exact absurd h (by decide)
    · rename_i hrelative
      exact ⟨by simpa using hrelative, htrimmed⟩
  · rename_i hother
    obtain ⟨-, -, -, hne, -⟩ := exists_trimReversed hss
    have hsingle := joinSegments_eq_empty (by simpa using hne) h
    exact (hother (by simpa [List.reverse_eq_iff] using hsingle)).elim

/-- Nothing is left in front of the only segment that means something. -/
theorem dropLast_steps_of_reversed (hreversed : reversed path = s :: ss)
    (h : ss = [] ∨ ofReversed (isAbsolute path) ss = "") : (steps path).dropLast = [] := by
  by_cases hpath : path = ""
  · rw [hpath]
    rfl
  obtain ⟨nothing, hnothing, hsegments⟩ := segments_eq_of_reversed hreversed
  by_cases hss : ss = []
  · rw [steps_eq_stepsOf hpath, hsegments, hss, List.reverse_nil, List.nil_append, stepsOf,
      hnothing.stepsAfter, List.append_nil]
    split
    · rfl
    · cases step? true s <;> rfl
  · obtain ⟨hrelative, htrimmed⟩ := ofReversed_eq_empty hss (h.resolve_left hss)
    obtain ⟨trimmed, -, hsplit, -, -⟩ := exists_trimReversed hss
    rw [hsplit, htrimmed, List.reverse_append] at hsegments
    exact (hpath (eq_empty_of_segments hrelative hsegments)).elim

/-- A path of several steps has a parent. -/
theorem exists_parent? (h : (steps path).dropLast ≠ []) :
    ∃ parent, parent? path = some parent ∧ parent ≠ "" := by
  obtain ⟨s, ss, hreversed⟩ := exists_reversed path
  have hss : ss ≠ [] := fun hss => h (dropLast_steps_of_reversed hreversed (.inl hss))
  refine ⟨ofReversed (isAbsolute path) ss, ?_,
    fun hempty => h (dropLast_steps_of_reversed hreversed (.inr hempty))⟩
  rw [parent?, hreversed]
  split
  · rename_i heq
    cases heq
  · rename_i heq
    exact (hss (List.cons.inj heq).2).elim
  · rename_i heq
    rw [(List.cons.inj heq).2]

theorem EndsInName.ne_empty (h : EndsInName path) : path ≠ "" := by
  rintro rfl
  obtain ⟨ss, n, hs, hn⟩ := h
  have hempty : segments '/' "" = [""] := rfl
  rw [hempty, List.singleton_eq_append_iff] at hs
  rcases hs with ⟨-, hs⟩ | ⟨-, hs⟩
  · exact hn.ne_empty (List.singleton_inj.mp hs)
  · cases hs

theorem IsName.endsInName (h : IsName n) : EndsInName n :=
  ⟨[], n, Text.segments_of_not_mem h.no_slash, h⟩

theorem exists_segments_join (h : segments '/' path = ss ++ [n]) (base : String) :
    ∃ before, segments '/' (join base path) = before ++ [n] := by
  rw [Path.join]
  split
  · exact ⟨ss, h⟩
  · split
    · rename_i hslash
      obtain ⟨before, hbefore⟩ := List.getLast?_eq_some_iff.mp (beq_iff_eq.mp hslash)
      have hbase : base = String.ofList before ++ String.singleton '/' := by
        rw [← String.toList_inj]
        simp [hbefore]
      refine ⟨segments '/' (String.ofList before) ++ ss, ?_⟩
      rw [hbase, Text.segments_join, h, List.append_assoc]
    · refine ⟨segments '/' base ++ ss, ?_⟩
      rw [show "/" = String.singleton '/' from rfl, Text.segments_join, h, List.append_assoc]

/-- Going on from a path leads to the end of the path that is gone on. -/
theorem EndsInName.join (h : EndsInName path) (base : String) : EndsInName (join base path) := by
  obtain ⟨ss, n, hs, hn⟩ := h
  obtain ⟨before, hjoin⟩ := exists_segments_join hs base
  exact ⟨before, n, hjoin, hn⟩

theorem isName_of_length (hlength : 2 < n.length) (hslash : '/' ∉ n.toList) : IsName n := by
  refine ⟨?_, ?_, ?_, hslash⟩ <;>
    · rintro rfl
      revert hlength
      decide

/-- A text that ends in an extension ends in a name. -/
theorem endsInName_extension {extension : String} (h : '/' ∉ extension.toList)
    (hlength : 2 < extension.length) (s : String) : EndsInName (s ++ extension) := by
  obtain ⟨before, last, -, hs⟩ := Text.segments_append_of_not_mem (s := s) h
  refine ⟨before, last ++ extension, hs, ?_⟩
  have hlong : 2 < (last ++ extension).length := by
    rw [String.length_append]
    omega
  exact isName_of_length hlong (Text.not_mem_of_mem_segments (s := s ++ extension) (by simp [hs]))

theorem steps_of_fileName? (h : fileName? path = some n) :
    steps path = (steps path).dropLast ++ [.name n] := by
  rw [fileName?] at h
  split at h
  · rename_i hlast
    obtain rfl := Option.some.inj h
    exact (List.dropLast_append_getLast? _ hlast).symm
  · cases h

theorem fileName?_of_steps {ss : List Step} (h : steps path = ss ++ [.name n]) :
    fileName? path = some n := by
  rw [fileName?, h, List.getLast?_concat]

theorem fileName?_of_segments (h : segments '/' path = ss ++ [n]) (hn : IsName n) :
    fileName? path = some n := by
  rw [fileName?, steps_eq_stepsOf (EndsInName.ne_empty ⟨ss, n, h, hn⟩), h]
  cases ss with
  | nil =>
    rw [List.nil_append, stepsOf, if_neg hn.ne_empty, hn.step?]
    rfl
  | cons s ss =>
    rw [stepsOf_append (by simp), stepsAfter, List.filterMap_cons_some (hn.step? false),
      List.filterMap_nil, List.getLast?_concat]

/-- The extension of a name stands at its end, behind a dot. -/
theorem fileName?_of_extension? (h : extension? path = some extension) :
    ∃ before, fileName? path = some (before ++ "." ++ extension) := by
  obtain ⟨n, hn, hextension⟩ := Option.bind_eq_some_iff.mp h
  split at hextension
  · cases hextension
  · cases hextension
  · rename_i before _ hbefore
    have hsplit := (Text.eq_of_beforeLast? hbefore).1
    rw [Option.some.inj hextension] at hsplit
    exact ⟨before, hn.trans (congrArg some hsplit)⟩

/-- The stem of a name is all of it, or what stands before its last dot. -/
theorem stem_eq (n : String) : stem n = n ∨ Text.beforeLast? '.' n = some (stem n) := by
  rw [stem]
  split
  · exact .inl rfl
  · exact .inl rfl
  · rename_i before _ hbefore
    exact .inr hbefore

/-- No name has an extension of two parts. -/
theorem stem_append_ne (h : '.' ∈ extension.toList) (n : String) :
    stem n ++ String.singleton '.' ++ extension ≠ n := by
  intro heq
  rcases stem_eq n with hstem | hstem
  · have hlength := congrArg String.length heq
    have hdot : (String.singleton '.').length = 1 := rfl
    rw [hstem] at hlength
    simp only [String.length_append] at hlength
    omega
  · obtain ⟨hsplit, hbehind⟩ := Text.eq_of_beforeLast? hstem
    have hsame := heq.trans hsplit
    rw [← String.toList_inj] at hsame
    simp only [String.toList_append] at hsame
    exact hbehind (List.append_cancel_left hsame ▸ h)

private theorem stem_no_slash (h : '/' ∉ n.toList) : '/' ∉ (stem n).toList := by
  rcases stem_eq n with hstem | hstem
  · rwa [hstem]
  · intro hmem
    refine h ?_
    rw [(Text.eq_of_beforeLast? hstem).1]
    simp [hmem]

theorem isName_stem_append (hn : IsName n) (hslash : '/' ∉ extension.toList)
    (hlength : 1 < extension.length) : IsName (stem n ++ "." ++ extension) := by
  have hslashes : '/' ∉ (stem n ++ "." ++ extension).toList := by
    simp [stem_no_slash hn.no_slash, hslash]
  have hlong : 2 < (stem n ++ "." ++ extension).length := by
    have hdot : ".".length = 1 := rfl
    simp only [String.length_append]
    omega
  exact isName_of_length hlong hslashes

theorem joinSegments_concat_ne_empty (hss : ∀ t ∈ ss ++ [n], '/' ∉ t.toList) (hn : n ≠ "") :
    joinSegments (ss ++ [n]) ≠ "" := by
  intro hempty
  have hback := @Text.segments_intercalate '/' _ (by simp) hss
  rw [show String.intercalate (String.singleton '/') _ = _ from hempty] at hback
  have hsingle : [""] = ss ++ [n] := hback
  have hlast := congrArg List.getLast? hsingle
  rw [List.getLast?_concat] at hlast
  exact hn (Option.some.inj hlast).symm

/-- A name in the place of the last segment that means something is the last step instead. -/
theorem stepsOf_concat_of_reversed (h : reversed path = s :: ss) (hnothing : MeansNothing ss')
    (hn : IsName n) :
    stepsOf (ss.reverse ++ [n]) = (stepsOf (ss.reverse ++ s :: ss')).dropLast ++ [.name n] := by
  cases ss with
  | nil =>
    have hold : (stepsOf (s :: ss')).dropLast = [] := by
      rw [stepsOf, hnothing.stepsAfter, List.append_nil]
      split
      · rfl
      · cases step? true s <;> rfl
    have hsingle : stepsOf [n] = [.name n] := by
      rw [stepsOf, if_neg hn.ne_empty, hn.step?]
      rfl
    rw [List.reverse_nil, List.nil_append, List.nil_append, hold, hsingle, List.nil_append]
  | cons s' ss =>
    obtain ⟨step, hstep, -⟩ := step?_of_reversed h
    have hnil : (s' :: ss).reverse ≠ [] := by simp
    have hafter : stepsAfter (s :: ss') = [step] := by
      rw [stepsAfter, List.filterMap_cons_some hstep, ← stepsAfter, hnothing.stepsAfter]
    rw [stepsOf_append hnil, stepsOf_append hnil, hafter, List.dropLast_concat]
    exact congrArg _ (stepsAfter_append_name hn [])

/-- To replace the extension of a path is to replace the name at its end. -/
theorem steps_withExtension (hname : fileName? path = some n) (hslash : '/' ∉ extension.toList)
    (hlength : 1 < extension.length) :
    steps (withExtension path extension) =
      (steps path).dropLast ++ [.name (stem n ++ "." ++ extension)] := by
  have hpath : path ≠ "" := by
    rintro rfl
    cases hname
  have hn : IsName n := @isName_of_mem_steps path n (by rw [steps_of_fileName? hname]; simp)
  have hnew := isName_stem_append hn hslash hlength
  obtain ⟨s, ss, hreversed⟩ := exists_reversed path
  obtain ⟨nothing, hnothing, hsegments⟩ := segments_eq_of_reversed hreversed
  have hreplaced : withExtension path extension =
      joinSegments (ss.reverse ++ [stem n ++ "." ++ extension]) := by
    simp only [withExtension, hname, hreversed, List.reverse_cons]
  have hclean : ∀ t ∈ ss.reverse ++ [stem n ++ "." ++ extension], '/' ∉ t.toList := by
    intro t ht
    rcases List.mem_append.mp ht with ht | ht
    · exact Text.not_mem_of_mem_segments (s := path) (by rw [hsegments]; simp [List.mem_reverse.mp ht])
    · rw [List.mem_singleton.mp ht]
      exact hnew.no_slash
  rw [hreplaced, steps_joinSegments (by simp) hclean (joinSegments_concat_ne_empty hclean hnew.ne_empty),
    steps_eq_stepsOf hpath, hsegments]
  exact stepsOf_concat_of_reversed hreversed hnothing hnew

/-- All segments of the text are names, or mean nothing anywhere. -/
def IsPlain (s : String) : Prop := ∀ t ∈ segments '/' s, t = "" ∨ IsName t

theorem isPlain_of_no_dot (h : '.' ∉ s.toList) : IsPlain s := by
  intro t ht
  by_cases hempty : t = ""
  · exact .inl hempty
  · have hdot : '.' ∉ t.toList := fun hmem => h (Text.mem_of_mem_segments hmem ht)
    refine .inr ⟨hempty, ?_, ?_, Text.not_mem_of_mem_segments ht⟩ <;>
      · rintro rfl
        exact hdot (by decide)

theorem isPlain_append (h : '.' ∉ s.toList) (hslash : '/' ∉ extension.toList)
    (hlength : 2 < extension.length) : IsPlain (s ++ extension) := by
  obtain ⟨before, last, hs, happend⟩ := Text.segments_append_of_not_mem (s := s) hslash
  intro t ht
  rw [happend, List.mem_append, List.mem_singleton] at ht
  rcases ht with ht | rfl
  · exact isPlain_of_no_dot h t (by simp [hs, ht])
  · refine .inr (isName_of_length ?_ ?_)
    · rw [String.length_append]
      omega
    · exact Text.not_mem_of_mem_segments (s := s ++ extension) (by simp [happend])

private theorem IsPlain.exists_names (h : IsPlain s) :
    ∃ names : List String, stepsAfter (segments '/' s) = names.map .name := by
  rw [IsPlain] at h
  generalize segments '/' s = ss at h ⊢
  induction ss with
  | nil => exact ⟨[], rfl⟩
  | cons t ts ih =>
    obtain ⟨ht, hts⟩ := List.forall_mem_cons.mp h
    obtain ⟨names, hnames⟩ := ih hts
    rcases ht with rfl | ht
    · exact ⟨names, hnames⟩
    · refine ⟨t :: names, ?_⟩
      rw [stepsAfter, List.filterMap_cons_some (ht.step? false), List.map_cons, ← hnames]
      rfl

/-- Where one of the paths to go on by is absolute, it makes no difference from where to go on. -/
theorem foldl_join_of_isAbsolute (h : ∃ s ∈ ss, isAbsolute s) (base base' : String) :
    ss.foldl join base = ss.foldl join base' := by
  induction ss generalizing base base' with
  | nil => simp at h
  | cons s ss ih =>
    rw [List.foldl_cons, List.foldl_cons]
    by_cases hs : isAbsolute s
    · simp [join, hs]
    · exact ih (by simpa [hs] using h) _ _

private theorem steps_join_congr {base' : String} (hbase : base ≠ "") (hbase' : base' ≠ "")
    (hsteps : steps base = steps base') (path : String) :
    steps (join base path) = steps (join base' path) := by
  by_cases h : isAbsolute path
  · simp [join, h]
  · rw [steps_join hbase (by simpa using h), steps_join hbase' (by simpa using h), hsteps]

theorem steps_foldl_join_congr {base' : String} (hbase : base ≠ "") (hbase' : base' ≠ "")
    (hsteps : steps base = steps base') (ss : List String) :
    steps (ss.foldl join base) = steps (ss.foldl join base') := by
  induction ss generalizing base base' with
  | nil => exact hsteps
  | cons s ss ih =>
    exact ih (join_ne_empty hbase s) (join_ne_empty hbase' s) (steps_join_congr hbase hbase' hsteps s)

/-- Relative paths lead on by their names. -/
theorem exists_steps_foldl_join (h : ∀ s ∈ ss, IsPlain s) (hrelative : ∀ s ∈ ss, isAbsolute s = false)
    (hbase : base ≠ "") :
    ∃ names : List String, steps (ss.foldl join base) = steps base ++ names.map .name := by
  induction ss generalizing base with
  | nil => exact ⟨[], by simp⟩
  | cons s ss ih =>
    obtain ⟨hs, hss⟩ := List.forall_mem_cons.mp h
    obtain ⟨hrel, hrels⟩ := List.forall_mem_cons.mp hrelative
    obtain ⟨first, hfirst⟩ := hs.exists_names
    obtain ⟨rest, hrest⟩ := ih hss hrels (join_ne_empty hbase s)
    refine ⟨first ++ rest, ?_⟩
    rw [List.foldl_cons, hrest, steps_join hbase hrel, hfirst, List.append_assoc, List.map_append]

/-- Absolute ones lead on from the root. -/
theorem exists_start_foldl_join (h : ∀ s ∈ ss, IsPlain s) (hbase : base ≠ "") :
    ∃ start, (start = steps base ∨ start = [.root]) ∧
      ∃ names : List String, steps (ss.foldl join base) = start ++ names.map .name := by
  induction ss generalizing base with
  | nil => exact ⟨_, .inl rfl, [], by simp⟩
  | cons s ss ih =>
    obtain ⟨hs, hss⟩ := List.forall_mem_cons.mp h
    obtain ⟨start, hstart, names, hnames⟩ := ih hss (join_ne_empty hbase s)
    obtain ⟨first, hfirst⟩ := hs.exists_names
    rcases hstart with rfl | hroot
    · by_cases habsolute : isAbsolute s
      · obtain ⟨rest, hrest⟩ := segments_of_isAbsolute habsolute
        refine ⟨_, .inr rfl, first ++ names, ?_⟩
        have hjoin : join base s = s := by simp [join, habsolute]
        have hsteps : steps s = .root :: first.map .name := by
          rw [steps_of_isAbsolute habsolute hrest, ← hfirst, hrest]
          rfl
        rw [List.foldl_cons, hnames, hjoin, hsteps, List.map_append, List.cons_append]
        rfl
      · refine ⟨_, .inl rfl, first ++ names, ?_⟩
        rw [List.foldl_cons, hnames, steps_join hbase (by simpa using habsolute), hfirst,
          List.append_assoc, List.map_append]
    · exact ⟨start, .inr hroot, names, hnames⟩

namespace Step

/-- Steps are ordered by their ranks, and names among each other as texts. -/
def orderKey : Step → ℕ ×ₗ String
  | name s => toLex (3, s)
  | s => toLex (s.rank, "")

theorem orderKey_injective : Function.Injective orderKey := by
  intro a b h
  cases a <;> cases b <;> simp_all [orderKey, rank]

instance : LinearOrder Step := LinearOrder.lift' orderKey orderKey_injective

theorem lt_iff (a b : Step) : a.lt b ↔ a < b := by
  have hlift : a < b ↔ orderKey a < orderKey b := Iff.rfl
  rw [hlift]
  cases a <;> cases b <;> simp [lt, orderKey, rank, Prod.Lex.toLex_lt_toLex]

end Step

private theorem stepsLt_iff (as bs : List Step) : stepsLt as bs ↔ as < bs := by
  induction as generalizing bs with
  | nil => cases bs <;> simp [stepsLt]
  | cons a as ih =>
    cases bs with
    | nil => simp [stepsLt]
    | cons b bs =>
      rw [stepsLt, Bool.or_eq_true, Bool.and_eq_true, beq_iff_eq, Step.lt_iff, ih, List.cons_lt_cons_iff]

/-- Paths are ordered as their steps are. -/
theorem le_iff (a b : String) : le a b ↔ steps a ≤ steps b := by
  rw [le, Bool.not_eq_true', ← not_lt, ← stepsLt_iff, Bool.not_eq_true]

theorem pairwise_mergeSort (paths : List String) :
    (paths.mergeSort le).Pairwise fun a b => le a b := by
  refine List.pairwise_mergeSort (fun a b c hab hbc => ?_) (fun a b => ?_) paths
  · rw [le_iff] at *
    exact hab.trans hbc
  · rw [Bool.or_eq_true, le_iff, le_iff]
    exact le_total _ _

/-- Paths none of which mean the same have one order. -/
theorem mergeSort_congr {paths paths' : List String} (h : paths.Perm paths')
    (hsteps : ∀ a ∈ paths, ∀ b ∈ paths, steps a = steps b → a = b) :
    paths.mergeSort le = paths'.mergeSort le := by
  have hperm := (List.mergeSort_perm paths le).trans (h.trans (List.mergeSort_perm paths' le).symm)
  refine hperm.eq_of_pairwise (fun a b ha hb hab hba => ?_) (pairwise_mergeSort paths)
    (pairwise_mergeSort paths')
  refine hsteps a (List.mem_mergeSort.mp ha) b (h.mem_iff.mpr (List.mem_mergeSort.mp hb)) ?_
  exact le_antisymm ((le_iff a b).mp hab) ((le_iff b a).mp hba)

end Path

end StructureGraph.Files
