import StructureGraph.Resolution.Search

namespace StructureGraph.Resolution

open StructureGraph.Java

variable {name text : String} {arguments : List (Option String)} {cs : List Candidate}

namespace Verdict

private theorem le_foldl_max (ns : List Nat) (n : Nat) :
    n ≤ ns.foldl max n ∧ ∀ m ∈ ns, m ≤ ns.foldl max n := by
  induction ns generalizing n with
  | nil => simp
  | cons k ns ih =>
    obtain ⟨hle, hall⟩ := ih (max n k)
    rw [List.foldl_cons]
    refine ⟨Nat.le_trans (Nat.le_max_left n k) hle, fun m hm => ?_⟩
    rcases List.mem_cons.mp hm with rfl | hm
    · exact Nat.le_trans (Nat.le_max_right n m) hle
    · exact hall m hm

theorem score_le_bestScore {c : Candidate} (h : c ∈ cs) :
    c.score arguments ≤ bestScore cs arguments :=
  (le_foldl_max _ 0).2 _ (List.mem_map_of_mem h)

/-- The candidate that is chosen has a greater score than each other one. -/
theorem chosen_of_choose (h : choose cs arguments = signature text) :
    ∃ before c after, cs = before ++ c :: after ∧ c.signature = text ∧
      ∀ c' ∈ before ++ after, c'.score arguments < c.score arguments := by
  unfold choose at h
  split at h
  · cases h
  · rename_i c
    exact ⟨[], c, [], rfl, signature.inj h, by simp⟩
  · split at h
    · rename_i c hbest
      obtain ⟨before, after, rfl, hbefore, hc, hafter⟩ := List.filter_eq_cons_iff.mp hbest
      refine ⟨before, c, after, rfl, signature.inj h, fun c' hc' => ?_⟩
      have hother : c'.score arguments ≠ bestScore (before ++ c :: after) arguments := by
        rcases List.mem_append.mp hc' with hc' | hc'
        · simpa using hbefore c' hc'
        · simpa using List.filter_eq_nil_iff.mp hafter c' hc'
      have hle : c'.score arguments ≤ bestScore (before ++ c :: after) arguments :=
        score_le_bestScore (List.mem_append.mpr
          ((List.mem_append.mp hc').imp_right (List.mem_cons_of_mem c)))
      rw [beq_iff_eq.mp hc]
      omega
    · cases h

end Verdict

/-- A signature comes from a type to which the search was led; what holds of the first types and of
the supertypes of each holds of that one. -/
theorem verdict_of_search {find : String → Option FoundType} {p : FoundType → Prop}
    (hsupertypes : ∀ t, p t → ∀ t' ∈ t.supertypes.run find, p t') {examined : List String}
    {pending : List (FoundType × Nat)} (hpending : ∀ x ∈ pending, p x.1)
    (h : (search name arguments examined pending).run find = .signature text) :
    ∃ t, p t ∧ t.verdict name arguments = .signature text := by
  fun_induction search name arguments examined pending with
  | case1 examined => cases h
  | case2 examined t distance rest hfar => cases h
  | case3 examined t distance rest hnear hseen ih =>
    exact ih (fun x hx => hpending x (List.mem_cons_of_mem _ hx)) h
  | case4 examined t distance rest hnear hnew hverdict ih =>
    have ht : p t := hpending (t, distance) List.mem_cons_self
    rw [show t.supertypes.bind _ = t.supertypes >>= _ from rfl, Inquiry.run_bind] at h
    refine ih _ (fun x hx => ?_) h
    rcases List.mem_append.mp hx with hx | hx
    · obtain ⟨t', ht', rfl⟩ := List.mem_map.mp hx
      exact hsupertypes t ht t' ht'
    · exact hpending x (List.mem_cons_of_mem _ hx)
  | case5 examined t distance rest hnear hnew hverdict =>
    exact ⟨t, hpending (t, distance) List.mem_cons_self, h⟩

/-- What a type itself says to a call counts, whatever its supertypes are. -/
theorem run_lookup_of_verdict {find : String → Option FoundType} {t : FoundType}
    (h : t.verdict name arguments ≠ .missing) :
    (lookup t name arguments).run find = t.verdict name arguments := by
  rw [lookup, search, if_neg (Nat.not_lt_zero _), if_neg (by simp)]
  split
  · contradiction
  · rfl

theorem run_lookup_of_signature {find : String → Option FoundType} {t : FoundType}
    (h : t.verdict name arguments = .signature text) :
    (lookup t name arguments).run find = .signature text := by
  have hfound : t.verdict name arguments ≠ .missing := by
    rw [h]
    exact Verdict.noConfusion
  rw [run_lookup_of_verdict hfound, h]

theorem verdict_of_lookup {find : String → Option FoundType} {p : FoundType → Prop}
    (hsupertypes : ∀ t, p t → ∀ t' ∈ t.supertypes.run find, p t') {t : FoundType} (ht : p t)
    (h : (lookup t name arguments).run find = .signature text) :
    ∃ t', p t' ∧ t'.verdict name arguments = .signature text :=
  verdict_of_search hsupertypes (fun x hx => by rwa [List.mem_singleton.mp hx]) h

theorem run_writtenType? {find : String → Option FoundType} {u : CompilationUnit}
    {scope : List String} {written : String} {t : FoundType}
    (h : (writtenType? u scope written).run find = some t) :
    ∃ candidate ∈ u.typeCandidates scope written, find candidate = some t := by
  simp only [writtenType?] at h
  split at h
  · cases h
  · rw [Inquiry.run_first?] at h
    exact List.exists_of_findSome?_eq_some h

private theorem exists_of_mem_writtenTypes {find : String → Option FoundType} {u : CompilationUnit}
    {scope : List String} {ws : List String} {t : FoundType}
    (h : t ∈ (writtenTypes u scope ws).run find) : ∃ name, find name = some t := by
  induction ws with
  | nil => cases h
  | cons w ws ih =>
    rw [writtenTypes, Inquiry.run_bind, Inquiry.run_bind, Inquiry.run_pure] at h
    rcases List.mem_append.mp h with h | h
    · obtain ⟨candidate, -, hfind⟩ := run_writtenType? (Option.mem_toList.mp h)
      exact ⟨candidate, hfind⟩
    · exact ih h

/-- A supertype is a type that was found, or the root of all classes. -/
theorem exists_of_mem_supertypes {find : String → Option FoundType} {t t' : FoundType}
    (h : t' ∈ t.supertypes.run find) :
    (∃ name, find name = some t') ∨ t' = .builtin .object := by
  cases t with
  | declared u d =>
    rw [FoundType.supertypes, Inquiry.run_bind, Inquiry.run_pure] at h
    rcases List.mem_append.mp h with h | h
    · exact .inl (exists_of_mem_writtenTypes h)
    · split at h
      · exact .inr (List.mem_singleton.mp h)
      · cases h
  | builtin b =>
    rw [FoundType.supertypes] at h
    split at h
    · rename_i name hname
      rw [Inquiry.run_bind, Inquiry.run_pure] at h
      exact .inl ⟨name, Option.mem_toList.mp h⟩
    · cases h

end StructureGraph.Resolution
