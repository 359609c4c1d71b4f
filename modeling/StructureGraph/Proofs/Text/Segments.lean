import Mathlib.Data.List.TakeWhile
import Mathlib.Data.String.Basic
import StructureGraph.Text.Segments

namespace StructureGraph.Text

variable {separator : Char}

theorem segmentsFrom_append {cs : List Char} (h : separator ∉ cs) (segment rest : List Char) :
    segmentsFrom separator segment (cs ++ rest) =
      segmentsFrom separator (cs.reverse ++ segment) rest := by
  induction cs generalizing segment with
  | nil => rfl
  | cons c cs ih =>
    simp only [List.mem_cons, not_or] at h
    simp [segmentsFrom, Ne.symm h.1, ih h.2]

theorem segments_of_not_mem {s : String} (h : separator ∉ s.toList) :
    segments separator s = [s] := by
  have hs := segmentsFrom_append h [] []
  rw [List.append_nil] at hs
  simp [segments, hs, segmentsFrom]

theorem not_mem_lastSegment (s : String) : separator ∉ (lastSegment separator s).toList := by
  rw [lastSegment, String.toList_ofList, List.mem_reverse]
  intro hmem
  simpa using List.all_eq_true.mp List.all_takeWhile _ hmem

theorem exists_eq_append_lastSegment (s : String) : ∃ before, s = before ++ lastSegment separator s := by
  have hparts := List.takeWhile_append_dropWhile (p := (· != separator)) (l := s.toList.reverse)
  refine ⟨String.ofList (s.toList.reverse.dropWhile (· != separator)).reverse, ?_⟩
  rw [lastSegment, ← String.ofList_append, ← List.reverse_append, hparts, List.reverse_reverse,
    String.ofList_toList]

/-- What stands in front of a separator makes no difference to the last segment. -/
theorem lastSegment_join (s t : String) :
    lastSegment separator (s ++ String.singleton separator ++ t) = lastSegment separator t := by
  have hstop : (separator :: s.toList.reverse).takeWhile (· != separator) = [] := by simp
  have hreverse : (s ++ String.singleton separator ++ t).toList.reverse =
      t.toList.reverse ++ separator :: s.toList.reverse := by simp
  rw [lastSegment, lastSegment, hreverse, List.takeWhile_append, hstop, List.append_nil]
  split
  · rename_i hall
    rw [(List.takeWhile_prefix _).eq_of_length hall]
  · rfl

theorem lastSegment_of_not_mem {s : String} (h : separator ∉ s.toList) : lastSegment separator s = s := by
  have hall : ∀ c ∈ s.toList.reverse, (c != separator) = true := by
    intro c hc
    rw [bne_iff_ne]
    rintro rfl
    exact h (List.mem_reverse.mp hc)
  rw [lastSegment, List.takeWhile_eq_self_iff.mpr hall, List.reverse_reverse, String.ofList_toList]

theorem lastSegment_append {s t : String} (h : separator ∉ t.toList) :
    lastSegment separator (s ++ String.singleton separator ++ t) = t := by
  rw [lastSegment_join, lastSegment_of_not_mem h]

theorem segmentsFrom_append_cons (cs ds segment : List Char) :
    segmentsFrom separator segment (cs ++ separator :: ds) =
      segmentsFrom separator segment cs ++ segmentsFrom separator [] ds := by
  induction cs generalizing segment with
  | nil => simp [segmentsFrom]
  | cons c cs ih =>
    rw [List.cons_append, segmentsFrom, segmentsFrom]
    split
    · rw [ih, List.cons_append]
    · exact ih _

/-- The segments of a text are those on both sides of any of its separators. -/
theorem segments_join (s t : String) :
    segments separator (s ++ String.singleton separator ++ t) =
      segments separator s ++ segments separator t := by
  simp [segments, segmentsFrom_append_cons]

private theorem segmentsFrom_append_of_not_mem {ds : List Char} (h : separator ∉ ds)
    (cs segment : List Char) :
    ∃ before last, segmentsFrom separator segment cs = before ++ [last] ∧
      segmentsFrom separator segment (cs ++ ds) = before ++ [last ++ ds] := by
  induction cs generalizing segment with
  | nil =>
    refine ⟨[], segment.reverse, rfl, ?_⟩
    rw [List.nil_append, List.nil_append]
    induction ds generalizing segment with
    | nil => simp [segmentsFrom]
    | cons d ds ih =>
      simp only [List.mem_cons, not_or] at h
      rw [segmentsFrom, if_neg (by simpa using Ne.symm h.1), ih h.2]
      simp
  | cons c cs ih =>
    rw [List.cons_append, segmentsFrom, segmentsFrom]
    split
    · obtain ⟨before, last, hcs, hall⟩ := ih []
      exact ⟨segment.reverse :: before, last, by rw [hcs, List.cons_append],
        by rw [hall, List.cons_append]⟩
    · exact ih _

/-- A text without separators that is put at the end belongs to the last segment. -/
theorem segments_append_of_not_mem {s t : String} (h : separator ∉ t.toList) :
    ∃ before last, segments separator s = before ++ [last] ∧
      segments separator (s ++ t) = before ++ [last ++ t] := by
  obtain ⟨before, last, hs, hall⟩ := segmentsFrom_append_of_not_mem h s.toList []
  refine ⟨before.map String.ofList, String.ofList last, ?_, ?_⟩
  · rw [segments, hs, List.map_append, List.map_singleton]
  · rw [segments, String.toList_append, hall, List.map_append, List.map_singleton,
      String.ofList_append, String.ofList_toList]

private theorem not_mem_of_mem_segmentsFrom {cs segment s : List Char} (h : separator ∉ segment)
    (hs : s ∈ segmentsFrom separator segment cs) : separator ∉ s := by
  induction cs generalizing segment with
  | nil =>
    rw [List.mem_singleton.mp hs]
    simpa using h
  | cons c cs ih =>
    rw [segmentsFrom] at hs
    split at hs
    · rcases List.mem_cons.mp hs with rfl | hs
      · simpa using h
      · exact ih (by simp) hs
    · rename_i hc
      refine ih ?_ hs
      rw [List.mem_cons, not_or]
      exact ⟨fun heq => hc (by simp [heq]), h⟩

theorem not_mem_of_mem_segments {s t : String} (h : t ∈ segments separator s) :
    separator ∉ t.toList := by
  obtain ⟨cs, hcs, rfl⟩ := List.mem_map.mp h
  rw [String.toList_ofList]
  exact not_mem_of_mem_segmentsFrom (by simp) hcs

/-- The segments of texts that are joined are all of theirs. -/
theorem segments_intercalate_eq_flatMap {ss : List String} (hne : ss ≠ []) :
    segments separator (String.intercalate (String.singleton separator) ss) =
      ss.flatMap (segments separator) := by
  induction ss with
  | nil => exact (hne rfl).elim
  | cons s ss ih =>
    by_cases hnil : ss = []
    · rw [hnil, String.intercalate_singleton, List.flatMap_singleton]
    · rw [String.intercalate_cons_of_ne_nil hnil, segments_join, ih hnil, List.flatMap_cons]

/-- Parts that are joined are found again. -/
theorem segments_intercalate {ss : List String} (hne : ss ≠ [])
    (h : ∀ s ∈ ss, separator ∉ s.toList) :
    segments separator (String.intercalate (String.singleton separator) ss) = ss := by
  have hsingle : ∀ s ∈ ss, segments separator s = [s] := fun s hs => segments_of_not_mem (h s hs)
  rw [segments_intercalate_eq_flatMap hne, List.flatMap_congr hsingle, List.flatMap_singleton']

/-- Joined texts are made of what the texts are made of, and of the separator. -/
theorem forall_mem_intercalate {p : Char → Prop} {ss : List String} (hseparator : p separator)
    (h : ∀ s ∈ ss, ∀ c ∈ s.toList, p c) :
    ∀ c ∈ (String.intercalate (String.singleton separator) ss).toList, p c := by
  induction ss with
  | nil => exact nofun
  | cons s ss ih =>
    obtain ⟨hs, hss⟩ := List.forall_mem_cons.mp h
    by_cases hnil : ss = []
    · rwa [hnil, String.intercalate_singleton]
    · rw [String.intercalate_cons_of_ne_nil hnil, String.toList_append, String.toList_append,
        String.toList_singleton]
      exact List.forall_mem_append.mpr
        ⟨List.forall_mem_append.mpr ⟨hs, List.forall_mem_singleton.mpr hseparator⟩, ih hss⟩

private theorem mem_of_mem_segmentsFrom {c : Char} {cs segment s : List Char} (hc : c ∈ s)
    (hs : s ∈ segmentsFrom separator segment cs) : c ∈ segment ∨ c ∈ cs := by
  induction cs generalizing segment with
  | nil =>
    rw [List.mem_singleton.mp hs, List.mem_reverse] at hc
    exact .inl hc
  | cons d cs ih =>
    rw [segmentsFrom] at hs
    split at hs
    · rcases List.mem_cons.mp hs with rfl | hs
      · exact .inl (List.mem_reverse.mp hc)
      · rcases ih hs with h | h
        · cases h
        · exact .inr (List.mem_cons_of_mem d h)
    · rcases ih hs with h | h
      · rcases List.mem_cons.mp h with rfl | h
        · exact .inr List.mem_cons_self
        · exact .inl h
      · exact .inr (List.mem_cons_of_mem d h)

/-- Segments are made of what the text is made of. -/
theorem mem_of_mem_segments {c : Char} {s t : String} (hc : c ∈ t.toList)
    (h : t ∈ segments separator s) : c ∈ s.toList := by
  obtain ⟨cs, hcs, rfl⟩ := List.mem_map.mp h
  rw [String.toList_ofList] at hc
  rcases mem_of_mem_segmentsFrom hc hcs with hmem | hmem
  · cases hmem
  · exact hmem

theorem segmentsFrom_ne_nil (cs segment : List Char) : segmentsFrom separator segment cs ≠ [] := by
  induction cs generalizing segment with
  | nil => simp [segmentsFrom]
  | cons c cs ih =>
    rw [segmentsFrom]
    split
    · simp
    · exact ih _

theorem segments_ne_nil (s : String) : segments separator s ≠ [] := by
  rw [segments, ne_eq, List.map_eq_nil_iff]
  exact segmentsFrom_ne_nil _ _

private theorem headD_segmentsFrom (cs segment : List Char) :
    (segmentsFrom separator segment cs).headD [] =
      segment.reverse ++ cs.takeWhile (· != separator) := by
  induction cs generalizing segment with
  | nil => simp [segmentsFrom]
  | cons c cs ih =>
    rw [segmentsFrom]
    split
    · rename_i hc
      simp [beq_iff_eq.mp hc]
    · rename_i hc
      rw [ih, List.takeWhile_cons_of_pos (by simpa using hc)]
      simp

/-- The first segment is what stands before the first separator. -/
theorem headD_segments (s : String) :
    (segments separator s).headD "" = String.ofList (s.toList.takeWhile (· != separator)) := by
  rw [segments, ← String.ofList_nil, List.headD_map, headD_segmentsFrom]
  rfl

private theorem intercalate_segmentsFrom (cs segment : List Char) :
    [separator].intercalate (segmentsFrom separator segment cs) = segment.reverse ++ cs := by
  induction cs generalizing segment with
  | nil => simp [segmentsFrom]
  | cons c cs ih =>
    rw [segmentsFrom]
    split
    · rename_i hc
      rw [List.intercalate_cons_of_ne_nil (segmentsFrom_ne_nil cs []), ih]
      simpa using (beq_iff_eq.mp hc).symm
    · rw [ih]
      simp

/-- A text is its segments with separators between them. -/
theorem intercalate_segments (s : String) :
    String.intercalate (String.singleton separator) (segments separator s) = s := by
  rw [← String.toList_inj, String.toList_intercalate, segments, List.map_map]
  simp [Function.comp_def, intercalate_segmentsFrom]

private theorem length_le_length_flatMap_segments (ss : List String) :
    ss.length ≤ (ss.flatMap (segments separator)).length := by
  induction ss with
  | nil => exact le_rfl
  | cons s ss ih =>
    have hs : 0 < (segments separator s).length := List.length_pos_iff.mpr (segments_ne_nil s)
    rw [List.flatMap_cons, List.length_append, List.length_cons]
    omega

/-- Texts that have as many segments as there are texts have no separators. -/
theorem eq_of_flatMap_segments {ss ts : List String} (hlength : ss.length = ts.length)
    (h : ss.flatMap (segments separator) = ts) : ss = ts := by
  induction ss generalizing ts with
  | nil => exact h
  | cons s ss ih =>
    obtain ⟨t, more, hs⟩ := List.exists_cons_of_ne_nil (@segments_ne_nil separator s)
    have hle := @length_le_length_flatMap_segments separator ss
    rw [List.flatMap_cons, hs] at h
    subst h
    have hmore : more = [] := by
      refine List.eq_nil_of_length_eq_zero ?_
      simp only [List.length_cons, List.length_append] at hlength
      omega
    subst hmore
    have ht := @intercalate_segments separator s
    rw [hs, String.intercalate_singleton] at ht
    rw [List.cons_append, List.nil_append, ht, ← ih (by simpa using hlength) rfl]

/-- The first separator of those in a text and the one behind it. -/
theorem exists_first_separator (s : String) : ∃ before rest : String, separator ∉ before.toList ∧
    s ++ String.singleton separator = before ++ String.singleton separator ++ rest := by
  by_cases h : separator ∈ s.toList
  · obtain ⟨as, bs, hs, has⟩ := List.eq_append_cons_of_mem h
    refine ⟨String.ofList as, String.ofList bs ++ String.singleton separator, by simpa using has, ?_⟩
    rw [← String.toList_inj]
    simp [hs]
  · exact ⟨s, "", h, by simp⟩

/-- The last separator of the one before a text and those in it. -/
theorem exists_last_separator (s : String) : ∃ rest behind : String, separator ∉ behind.toList ∧
    String.singleton separator ++ s = rest ++ String.singleton separator ++ behind := by
  by_cases h : separator ∈ s.toList
  · obtain ⟨as, bs, hs, has⟩ := List.eq_append_cons_of_mem (List.mem_reverse.mpr h)
    have hs := congrArg List.reverse hs
    refine ⟨String.singleton separator ++ String.ofList bs.reverse, String.ofList as.reverse,
      by simpa using has, ?_⟩
    rw [← String.toList_inj]
    simpa using hs
  · exact ⟨"", s, h, by simp⟩

/-- A separator cuts a text into what stands before its last one and what stands behind it. -/
theorem eq_of_beforeLast? {s before : String} (h : beforeLast? separator s = some before) :
    s = before ++ String.singleton separator ++ lastSegment separator s ∧
      separator ∉ (lastSegment separator s).toList := by
  refine ⟨?_, not_mem_lastSegment s⟩
  rw [beforeLast?] at h
  split at h
  · cases h
  · rename_i c cs hdrop
    have hc : c = separator := by
      have hhead := List.head?_dropWhile_not (· != separator) s.toList.reverse
      rw [hdrop] at hhead
      simpa using hhead
    have hsplit := List.takeWhile_append_dropWhile (p := (· != separator)) (l := s.toList.reverse)
    rw [hdrop, hc] at hsplit
    rw [← Option.some.inj h, ← String.toList_inj, lastSegment]
    have hreverse := congrArg List.reverse hsplit
    simpa using hreverse.symm

theorem beforeLast?_append {s t : String} (h : separator ∉ t.toList) :
    beforeLast? separator (s ++ String.singleton separator ++ t) = some s := by
  have hbehind : ∀ c ∈ t.toList.reverse, c != separator := by
    intro c hc
    rw [bne_iff_ne]
    rintro rfl
    exact h (List.mem_reverse.mp hc)
  simp [beforeLast?, List.dropWhile_append_of_pos hbehind]

theorem cutFirst?_append {s t : String} (h : separator ∉ s.toList) :
    cutFirst? separator (s ++ String.singleton separator ++ t) = some (s, t) := by
  have hbefore : ∀ c ∈ s.toList, c != separator := by
    intro c hc
    rw [bne_iff_ne]
    rintro rfl
    exact h hc
  simp [cutFirst?, List.dropWhile_append_of_pos hbefore, List.takeWhile_append_of_pos hbefore]

/-- Two texts that are joined are told apart if the separator is not in the first one. -/
theorem join_inj_left {s s' t t' : String} (hs : separator ∉ s.toList) (hs' : separator ∉ s'.toList)
    (h : s ++ String.singleton separator ++ t = s' ++ String.singleton separator ++ t') :
    s = s' ∧ t = t' := by
  have hcut := congrArg (cutFirst? separator) h
  rw [cutFirst?_append hs, cutFirst?_append hs'] at hcut
  exact Prod.mk.inj (Option.some.inj hcut)

/-- Two texts that are joined are told apart if the separator is not in the second one. -/
theorem join_inj_right {s s' t t' : String} (ht : separator ∉ t.toList) (ht' : separator ∉ t'.toList)
    (h : s ++ String.singleton separator ++ t = s' ++ String.singleton separator ++ t') :
    s = s' ∧ t = t' := by
  have hbefore := congrArg (beforeLast? separator) h
  rw [beforeLast?_append ht, beforeLast?_append ht'] at hbefore
  have hbehind := congrArg (lastSegment separator) h
  rw [lastSegment_append ht, lastSegment_append ht'] at hbehind
  exact ⟨Option.some.inj hbefore, hbehind⟩

end StructureGraph.Text
