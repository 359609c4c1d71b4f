import StructureGraph.Proofs.Resolution.Steps

namespace StructureGraph.Resolution

open StructureGraph.Java

section Recursion

variable (find : String → Option FoundType) (name : String) (arguments : List (Option String))

mutual

/-- A visit to a type, with the names of the types visited before, ends in a verdict, with the names of
those visited then. A type that was visited before is left out. Else its own methods decide, and if none
of them may be meant, the types above it are visited. -/
inductive Visits : List String → FoundType → Verdict → List String → Prop where
  | again {visited : List String} {t : FoundType} :
      t.qualifiedName ∈ visited → Visits visited t .missing visited
  | decides {visited : List String} {t : FoundType} {v : Verdict} :
      t.qualifiedName ∉ visited → t.verdict name arguments = v → v ≠ .missing →
      Visits visited t v (t.qualifiedName :: visited)
  | above {visited visited' : List String} {t : FoundType} {v : Verdict} :
      t.qualifiedName ∉ visited → t.verdict name arguments = .missing →
      VisitsAll (t.qualifiedName :: visited) (t.parents find) v visited' → Visits visited t v visited'

/-- Types are visited one after the other until one decides. -/
inductive VisitsAll : List String → List FoundType → Verdict → List String → Prop where
  | nil {visited : List String} : VisitsAll visited [] .missing visited
  | decides {visited visited' : List String} {t : FoundType} {ts : List FoundType} {v : Verdict} :
      Visits visited t v visited' → v ≠ .missing → VisitsAll visited (t :: ts) v visited'
  | next {visited visited' visited'' : List String} {t : FoundType} {ts : List FoundType}
      {v : Verdict} :
      Visits visited t .missing visited' → VisitsAll visited' ts v visited'' →
      VisitsAll visited (t :: ts) v visited''

end

end Recursion

variable {find : String → Option FoundType} {name : String} {arguments : List (Option String)}
  {visited visited' : List String} {t : FoundType} {ts ts' : List FoundType} {v v' : Verdict}

private theorem visits_again_iff (hseen : t.qualifiedName ∈ visited) :
    Visits find name arguments visited t v visited' ↔ v = .missing ∧ visited' = visited := by
  constructor
  · intro h
    cases h with
    | again => exact ⟨rfl, rfl⟩
    | decides hnew => exact absurd hseen hnew
    | above hnew => exact absurd hseen hnew
  · rintro ⟨rfl, rfl⟩
    exact .again hseen

private theorem visits_decides_iff (hnew : t.qualifiedName ∉ visited)
    (hverdict : t.verdict name arguments ≠ .missing) :
    Visits find name arguments visited t v visited' ↔
      v = t.verdict name arguments ∧ visited' = t.qualifiedName :: visited := by
  constructor
  · intro h
    cases h with
    | again hseen => exact absurd hseen hnew
    | decides _ hv => exact ⟨hv.symm, rfl⟩
    | above _ hmissing => exact absurd hmissing hverdict
  · rintro ⟨rfl, rfl⟩
    exact .decides hnew rfl hverdict

private theorem visits_above_iff (hnew : t.qualifiedName ∉ visited)
    (hverdict : t.verdict name arguments = .missing) :
    Visits find name arguments visited t v visited' ↔
      VisitsAll find name arguments (t.qualifiedName :: visited) (t.parents find) v visited' := by
  constructor
  · intro h
    cases h with
    | again hseen => exact absurd hseen hnew
    | decides _ hv hdecides => exact absurd (hv.symm.trans hverdict) hdecides
    | above _ _ habove => exact habove
  · exact .above hnew hverdict

private theorem visitsAll_nil_iff :
    VisitsAll find name arguments visited [] v visited' ↔ v = .missing ∧ visited' = visited := by
  constructor
  · intro h
    cases h
    exact ⟨rfl, rfl⟩
  · rintro ⟨rfl, rfl⟩
    exact .nil

private theorem visitsAll_cons_iff :
    VisitsAll find name arguments visited (t :: ts) v visited' ↔
      (v ≠ .missing ∧ Visits find name arguments visited t v visited') ∨
        ∃ between, Visits find name arguments visited t .missing between ∧
          VisitsAll find name arguments between ts v visited' := by
  constructor
  · intro h
    cases h with
    | decides ht hv => exact .inl ⟨hv, ht⟩
    | next ht hts => exact .inr ⟨_, ht, hts⟩
  · rintro (⟨hv, ht⟩ | ⟨between, ht, hts⟩)
    · exact .decides ht hv
    · exact .next ht hts

/-- To visit some types and then others is to visit all of them. -/
theorem visitsAll_append_iff :
    VisitsAll find name arguments visited (ts ++ ts') v visited' ↔
      (v ≠ .missing ∧ VisitsAll find name arguments visited ts v visited') ∨
        ∃ between, VisitsAll find name arguments visited ts .missing between ∧
          VisitsAll find name arguments between ts' v visited' := by
  induction ts generalizing visited with
  | nil =>
    rw [List.nil_append]
    constructor
    · exact fun hts' => .inr ⟨visited, .nil, hts'⟩
    · rintro (⟨hv, hnil⟩ | ⟨between, hnil, hts'⟩)
      · exact absurd (visitsAll_nil_iff.mp hnil).1 hv
      · exact (visitsAll_nil_iff.mp hnil).2 ▸ hts'
  | cons t ts ih =>
    rw [List.cons_append, visitsAll_cons_iff]
    constructor
    · rintro (⟨hv, ht⟩ | ⟨between, ht, hrest⟩)
      · exact .inl ⟨hv, .decides ht hv⟩
      · rcases ih.mp hrest with ⟨hv, hts⟩ | ⟨after, hts, hts'⟩
        · exact .inl ⟨hv, .next ht hts⟩
        · exact .inr ⟨after, .next ht hts, hts'⟩
    · rintro (⟨hv, hall⟩ | ⟨after, hall, hts'⟩)
      · rcases visitsAll_cons_iff.mp hall with ⟨-, ht⟩ | ⟨between, ht, hts⟩
        · exact .inl ⟨hv, ht⟩
        · exact .inr ⟨between, ht, ih.mpr (.inl ⟨hv, hts⟩)⟩
      · rcases visitsAll_cons_iff.mp hall with ⟨hv, -⟩ | ⟨between, ht, hts⟩
        · exact absurd rfl hv
        · exact .inr ⟨between, ht, ih.mpr (.inr ⟨after, hts, hts'⟩)⟩

namespace SearchState

variable {s s' : SearchState}

/-- The recursion through all types that wait ends in a verdict. -/
def Recurses (find : String → Option FoundType) (name : String) (arguments : List (Option String))
    (s : SearchState) (v : Verdict) (visited : List String) : Prop :=
  VisitsAll find name arguments s.examined (s.pending.map Prod.fst) v visited

private theorem recurses_of_step (h : Step find name arguments s s') :
    Recurses find name arguments s v visited ↔ Recurses find name arguments s' v visited := by
  cases h with
  | skip _ hseen =>
    rw [Recurses, List.map_cons, visitsAll_cons_iff]
    constructor
    · rintro (⟨hv, ht⟩ | ⟨between, ht, hrest⟩)
      · exact absurd ((visits_again_iff hseen).mp ht).1 hv
      · exact ((visits_again_iff hseen).mp ht).2 ▸ hrest
    · exact fun hrest => .inr ⟨_, .again hseen, hrest⟩
  | @expand examined t distance rest _ hnew hverdict =>
    have hpending : ((t.parents find).map (·, distance + 1) ++ rest).map Prod.fst =
        t.parents find ++ rest.map Prod.fst := by
      simp [Function.comp_def]
    rw [Recurses, Recurses, hpending, visitsAll_append_iff, List.map_cons, visitsAll_cons_iff]
    simp only [visits_above_iff hnew hverdict]

private theorem recurses_of_run (h : Run find name arguments s s') :
    Recurses find name arguments s v visited ↔ Recurses find name arguments s' v visited := by
  induction h with
  | refl => exact Iff.rfl
  | tail _ hstep ih => exact ih.trans (recurses_of_step hstep)

/-- At the end of a search, unless the next type is too far away, the recursion ends likewise. -/
theorem exists_recurses_iff_of_ends (h : Ends name arguments s v') (hnear : ¬ s.IsTooFar) :
    (∃ visited, Recurses find name arguments s v visited) ↔ v = v' := by
  cases h with
  | exhausted => simp [Recurses, visitsAll_nil_iff]
  | tooFar hfar => exact absurd ⟨_, rfl, hfar⟩ hnear
  | decided _ hnew hverdict =>
    simp only [Recurses, List.map_cons, visitsAll_cons_iff, visits_decides_iff hnew hverdict]
    constructor
    · rintro ⟨_, ⟨-, hv, -⟩ | ⟨_, ⟨hmissing, -⟩, -⟩⟩
      · exact hv
      · exact absurd hmissing.symm hverdict
    · rintro rfl
      exact ⟨_, .inl ⟨hverdict, rfl, rfl⟩⟩

private theorem recurses_start :
    Recurses find name arguments (start t) v visited ↔ Visits find name arguments [] t v visited := by
  rw [Recurses, start, List.map_singleton, visitsAll_cons_iff]
  constructor
  · rintro (⟨-, ht⟩ | ⟨between, ht, hnil⟩)
    · exact ht
    · obtain ⟨rfl, rfl⟩ := visitsAll_nil_iff.mp hnil
      exact ht
  · intro ht
    by_cases hv : v = .missing
    · subst hv
      exact .inr ⟨visited, ht, .nil⟩
    · exact .inl ⟨hv, ht⟩

end SearchState

/-- If no type that a search takes is too far away, the recursion from the first type on ends, and it
ends in what the search finds and in nothing else. -/
theorem lookup_eq_recursion (find : String → Option FoundType) (t : FoundType) (name : String)
    (arguments : List (Option String))
    (h : ∀ s, SearchState.Run find name arguments (.start t) s → ¬ s.IsTooFar) (v : Verdict) :
    (∃ visited, Visits find name arguments [] t v visited) ↔
      v = (lookup t name arguments).run find := by
  obtain ⟨s, v', hrun, hend, hv'⟩ := SearchState.exists_end find name arguments (.start t)
  simp only [← SearchState.recurses_start, SearchState.recurses_of_run hrun]
  rw [SearchState.exists_recurses_iff_of_ends hend (h s hrun), run_lookup_eq_outcome, hv']

/-- Two classes inherit from each other, and both from an interface that has the method. -/
theorem lookup_eq_recursion_cycle :
    let m : Method := ⟨"m", .publicAccess, false, [], .empty⟩
    let a := loneType .classType "A" (some "B") ["I"] []
    let ts := [a, loneType .classType "B" (some "A") ["I"] [], loneType .interfaceType "I" none [] [m]]
    let find := hierarchy ts
    (∀ s, SearchState.Run find "m" [] (.start a) s → ¬ s.IsTooFar) ∧
      ∃ visited, Visits find "m" [] [] a ((lookup a "m" []).run find) visited := by
  intro m a ts find
  let known := .builtin .object :: ts
  have hknown : ∀ t ∈ known, ∀ t' ∈ t.parents find, t' ∈ known := by decide +kernel
  have hnear : ∀ s, SearchState.Run find "m" [] (.start a) s → ¬ s.IsTooFar := fun s =>
    SearchState.not_isTooFar_of_closed hknown (by simp [known, ts]) (by decide)
  exact ⟨hnear, (lookup_eq_recursion find a "m" [] hnear _).mpr rfl⟩

end StructureGraph.Resolution
