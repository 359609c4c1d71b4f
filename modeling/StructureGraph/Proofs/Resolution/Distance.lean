import StructureGraph.Proofs.Resolution.Steps

namespace StructureGraph.Resolution

open StructureGraph.Java

variable {find : String → Option FoundType} {name : String} {arguments : List (Option String)}
  {t t' : FoundType}

/-- No two types above a type, itself among them, have the same name. -/
def NamesDiffer (find : String → Option FoundType) (t : FoundType) : Prop :=
  ∀ a b, IsAbove find t a → IsAbove find t b → a.qualifiedName = b.qualifiedName → a = b

namespace SearchState

variable {s s' : SearchState} {examined : List String}

/-- The type was examined, or it waits. -/
def Covers (s : SearchState) (t : FoundType) : Prop :=
  t.qualifiedName ∈ s.examined ∨ ∃ distance, (t, distance) ∈ s.pending

theorem Covers.step (h : s.Covers t) (hstep : Step find name arguments s s') : s'.Covers t := by
  cases hstep with
  | skip _ hseen =>
    rcases h with h | ⟨distance, h⟩
    · exact .inl h
    · rcases List.mem_cons.mp h with heq | h
      · obtain ⟨rfl, rfl⟩ := Prod.mk.inj heq
        exact .inl hseen
      · exact .inr ⟨distance, h⟩
  | expand =>
    rcases h with h | ⟨distance, h⟩
    · exact .inl (List.mem_cons_of_mem _ h)
    · rcases List.mem_cons.mp h with heq | h
      · obtain ⟨rfl, rfl⟩ := Prod.mk.inj heq
        exact .inl List.mem_cons_self
      · exact .inr ⟨distance, List.mem_append_right _ h⟩

/-- The first type is covered. Those above it that were examined have no such method, and their
supertypes are covered. -/
structure Explores (find : String → Option FoundType) (name : String)
    (arguments : List (Option String)) (t : FoundType) (s : SearchState) : Prop where
  first : s.Covers t
  closed : ∀ a, IsAbove find t a → a.qualifiedName ∈ s.examined →
    a.candidates name arguments.length = [] ∧ ∀ b ∈ a.parents find, s.Covers b

private theorem explores_start (t : FoundType) : Explores find name arguments t (start t) where
  first := .inr ⟨0, List.mem_singleton_self _⟩
  closed _ _ hexamined := absurd hexamined List.not_mem_nil

theorem Explores.step (h : Explores find name arguments t s) (hnames : NamesDiffer find t)
    (hpending : ∀ x ∈ s.pending, IsAbove find t x.1) (hstep : Step find name arguments s s') :
    Explores find name arguments t s' := by
  have hcovers : ∀ b, s.Covers b → s'.Covers b := fun _ hb => hb.step hstep
  refine ⟨hcovers t h.first, fun a ha hexamined => ?_⟩
  cases hstep with
  | skip =>
    obtain ⟨hcandidates, hparents⟩ := h.closed a ha hexamined
    exact ⟨hcandidates, fun b hb => hcovers b (hparents b hb)⟩
  | @expand examined t' distance rest _ _ hverdict =>
    rcases List.mem_cons.mp hexamined with hname | hexamined
    · have heq : a = t' := hnames a t' ha (hpending (t', distance) List.mem_cons_self) hname
      subst heq
      refine ⟨verdict_eq_missing_iff.mp hverdict, fun b hb => .inr ⟨distance + 1, ?_⟩⟩
      exact List.mem_append_left rest (List.mem_map_of_mem hb)
    · obtain ⟨hcandidates, hparents⟩ := h.closed a ha hexamined
      exact ⟨hcandidates, fun b hb => hcovers b (hparents b hb)⟩

private theorem explores_of_run (hnames : NamesDiffer find t) (h : Run find name arguments (start t) s) :
    Explores find name arguments t s := by
  induction h with
  | refl => exact explores_start t
  | tail hrun hstep ih => exact ih.step hnames (isAbove_of_run hrun) hstep

/-- Where no type waits any more, all types above the first one were examined. -/
theorem Explores.mem_examined (h : Explores find name arguments t ⟨examined, []⟩)
    (ha : IsAbove find t t') : t'.qualifiedName ∈ examined := by
  have hcovered : ∀ b, Covers ⟨examined, []⟩ b → b.qualifiedName ∈ examined := by
    rintro b (hb | ⟨distance, hb⟩)
    · exact hb
    · exact absurd hb List.not_mem_nil
  induction ha with
  | refl => exact hcovered t h.first
  | tail hrest hinherits ih => exact hcovered _ ((h.closed _ hrest ih).2 _ hinherits)

section Line

variable {line : Nat → FoundType}
  (hline : ∀ i ≤ maxDistance, ((line i).parents find).head? = some (line (i + 1)))
  (hnames : ∀ i ≤ maxDistance, ∀ j ≤ maxDistance,
    (line i).qualifiedName = (line j).qualifiedName → i = j)
  (hcandidates : ∀ i ≤ maxDistance, (line i).candidates name arguments.length = [])

include hline hnames hcandidates

/-- Where the first supertypes form a line, and no type of it has such a method, the search goes along that
line up to the limit, and only types of it are examined. -/
theorem exists_run_of_line {n : Nat} (hn : n ≤ maxDistance + 1) :
    ∃ examined rest, Run find name arguments (start (line 0)) ⟨examined, (line n, n) :: rest⟩ ∧
      ∀ q ∈ examined, ∃ i < n, q = (line i).qualifiedName := by
  induction n with
  | zero => exact ⟨[], [], .refl, fun _ hq => absurd hq List.not_mem_nil⟩
  | succ n ih =>
    have hle : n ≤ maxDistance := Nat.le_of_succ_le_succ hn
    obtain ⟨examined, rest, hrun, hexamined⟩ := ih (Nat.le_of_succ_le hn)
    have hnew : (line n).qualifiedName ∉ examined := by
      intro hmem
      obtain ⟨i, hi, hname⟩ := hexamined _ hmem
      have heq := hnames n hle i (by omega) hname
      omega
    have hstep : Step find name arguments ⟨examined, (line n, n) :: rest⟩ _ :=
      .expand hle hnew (verdict_eq_missing_iff.mpr (hcandidates n hle))
    obtain ⟨others, hothers⟩ := List.head?_eq_some_iff.mp (hline n hle)
    rw [hothers, List.map_cons, List.cons_append] at hstep
    refine ⟨_, _, hrun.tail hstep, fun q hq => ?_⟩
    rcases List.mem_cons.mp hq with rfl | hq
    · exact ⟨n, Nat.lt_succ_self n, rfl⟩
    · obtain ⟨i, hi, hname⟩ := hexamined q hq
      exact ⟨i, Nat.lt_succ_of_lt hi, hname⟩

/-- A line that is longer than the limit cuts the search off. -/
theorem exists_isTooFar_of_line :
    ∃ s, Run find name arguments (start (line 0)) s ∧ s.IsTooFar := by
  obtain ⟨examined, rest, hrun, -⟩ :=
    exists_run_of_line hline hnames hcandidates (Nat.le_refl (maxDistance + 1))
  exact ⟨_, hrun, _, rfl, Nat.lt_succ_self _⟩

end Line

end SearchState

/-- A search finds no method just in case it comes to a type that is too far away, or no type above the
first one has a method of the name which takes so many arguments. -/
theorem lookup_missing_iff (find : String → Option FoundType) (t : FoundType) (name : String)
    (arguments : List (Option String))
    (hnames : NamesDiffer find t) :
    (lookup t name arguments).run find = .missing ↔
      (∃ s, SearchState.Run find name arguments (.start t) s ∧ s.IsTooFar) ∨
        ∀ t', IsAbove find t t' → t'.candidates name arguments.length = [] := by
  rw [run_lookup_eq_outcome]
  obtain ⟨s, v, hrun, hend, hv⟩ := SearchState.exists_end find name arguments (.start t)
  constructor
  · intro hmissing
    cases hend with
    | exhausted =>
      have hexplores := SearchState.explores_of_run hnames hrun
      exact .inr fun t' ht' => (hexplores.closed t' ht' (hexplores.mem_examined ht')).1
    | tooFar hfar => exact .inl ⟨_, hrun, _, rfl, hfar⟩
    | decided _ _ hverdict => exact absurd (hv.symm.trans hmissing) hverdict
  · rintro (⟨s', hrun', hfar⟩ | hnone)
    · exact (SearchState.outcome_of_run hrun').trans (SearchState.outcome_of_isTooFar hfar)
    · rw [hv]
      cases hend with
      | exhausted => rfl
      | tooFar => rfl
      | @decided _ t' distance _ _ _ _ =>
        have habove := SearchState.isAbove_of_run hrun (t', distance) List.mem_cons_self
        exact verdict_eq_missing_iff.mpr (hnone t' habove)

/-- Two classes inherit from each other, and both from an interface that has the method. -/
theorem lookup_missing_iff_cycle :
    let m : Method := ⟨"m", .publicAccess, false, [], .empty⟩
    let a := loneType .classType "A" (some "B") ["I"] []
    let ts := [a, loneType .classType "B" (some "A") ["I"] [], loneType .interfaceType "I" none [] [m]]
    let find := hierarchy ts
    NamesDiffer find a ∧ (lookup a "m" []).run find ≠ .missing := by
  intro m a ts find
  let known := .builtin .object :: ts
  have hknown : ∀ t ∈ known, ∀ t' ∈ t.parents find, t' ∈ known := by decide +kernel
  have hmem : ∀ t, IsAbove find a t → t ∈ known := fun t => isAbove_mem hknown (by simp [known, ts])
  have hdifferent : ∀ t ∈ known, ∀ t' ∈ known, t.qualifiedName = t'.qualifiedName → t = t' := by
    decide +kernel
  have hnames : NamesDiffer find a :=
    fun t t' ht ht' => hdifferent t (hmem t ht) t' (hmem t' ht')
  refine ⟨hnames, fun hmissing => ?_⟩
  rcases (lookup_missing_iff find a "m" [] hnames).mp hmissing with ⟨s, hrun, hfar⟩ | hnone
  · exact SearchState.not_isTooFar_of_closed hknown (by simp [known, ts]) (by decide) hrun hfar
  · have hinherits : Inherits find a (loneType .interfaceType "I" none [] [m]) := by
      rw [Inherits]
      decide +kernel
    exact absurd (hnone _ (.single hinherits)) (by decide +kernel)

/-- A class has an interface with the method beside it, and above it a line of classes that is longer
than the limit. -/
theorem nearby_method_hidden :
    let m : Method := ⟨"m", .publicAccess, false, [], .empty⟩
    let line (i : Nat) := loneType .classType ("C" ++ toString i) (some ("C" ++ toString (i + 1)))
      (if i = 0 then ["I"] else []) []
    let beside := loneType .interfaceType "I" none [] [m]
    let find := hierarchy (beside :: (List.range 34).map line)
    Inherits find (line 0) beside ∧ beside.candidates "m" 0 ≠ [] ∧
      (lookup (line 0) "m" []).run find = .missing := by
  intro m line beside find
  refine ⟨by rw [Inherits]; decide +kernel, by decide +kernel, ?_⟩
  have hline : ∀ i ≤ maxDistance, ((line i).parents find).head? = some (line (i + 1)) := by
    decide +kernel
  have hnames : ∀ i ≤ maxDistance, ∀ j ≤ maxDistance,
      (line i).qualifiedName = (line j).qualifiedName → i = j := by
    decide +kernel
  have hcandidates : ∀ i ≤ maxDistance, (line i).candidates "m" 0 = [] := by decide +kernel
  have hcut : ∃ s, SearchState.Run find "m" [] (.start (line 0)) s ∧ s.IsTooFar :=
    SearchState.exists_isTooFar_of_line hline hnames hcandidates
  obtain ⟨s, hrun, hfar⟩ := hcut
  exact (SearchState.outcome_of_run hrun).trans (SearchState.outcome_of_isTooFar hfar)

end StructureGraph.Resolution
