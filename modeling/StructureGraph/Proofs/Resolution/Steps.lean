import Mathlib.Data.List.Perm.Subperm
import Mathlib.Logic.Relation
import StructureGraph.Proofs.Resolution.Search

namespace StructureGraph.Resolution

open StructureGraph.Java

variable {find : String → Option FoundType} {name : String} {arguments : List (Option String)}
  {t t' : FoundType}

/-- The direct supertypes that are found: the superclass, the interfaces in their order, and the root of
all classes where no superclass is named. A known type has its superclass only. -/
def FoundType.parents (find : String → Option FoundType) : FoundType → List FoundType
  | declared u d =>
    let written? (written : String) := (writtenType? u d.path written).run find
    (d.superclass.bind written?).toList ++ d.interfaces.filterMap written? ++
      if d.superclass = none then [builtin .object] else []
  | builtin t => (t.superclass.bind find).toList

private theorem run_writtenTypes (u : CompilationUnit) (scope ws : List String) :
    (writtenTypes u scope ws).run find =
      ws.filterMap fun w => (writtenType? u scope w).run find := by
  induction ws with
  | nil => rfl
  | cons w ws ih =>
    rw [writtenTypes, Inquiry.run_bind, Inquiry.run_bind, Inquiry.run_pure, ih, List.filterMap_cons]
    cases (writtenType? u scope w).run find <;> rfl

theorem run_supertypes (t : FoundType) : t.supertypes.run find = t.parents find := by
  cases t with
  | declared u d =>
    rw [FoundType.supertypes, Inquiry.run_bind, Inquiry.run_pure, run_writtenTypes,
      List.filterMap_append, FoundType.parents]
    cases d.superclass with
    | none => rfl
    | some w => cases hw : (writtenType? u d.path w).run find <;> simp [hw]
  | builtin b =>
    rw [FoundType.supertypes, FoundType.parents]
    cases b.superclass with
    | none => rfl
    | some w => rfl

/-- One type is a direct supertype of the other. -/
def Inherits (find : String → Option FoundType) (t t' : FoundType) : Prop := t' ∈ t.parents find

/-- Some steps from a type to a supertype lead from the one to the other. -/
abbrev IsAbove (find : String → Option FoundType) : FoundType → FoundType → Prop :=
  Relation.ReflTransGen (Inherits find)

theorem isAbove_mem {ts : List FoundType} (hts : ∀ t ∈ ts, ∀ t' ∈ t.parents find, t' ∈ ts) (ht : t ∈ ts)
    (h : IsAbove find t t') : t' ∈ ts := by
  induction h with
  | refl => exact ht
  | tail _ hinherits ih => exact hts _ ih _ hinherits

theorem choose_eq_missing_iff {cs : List Candidate} :
    Verdict.choose cs arguments = .missing ↔ cs = [] := by
  match cs with
  | [] => exact iff_of_true rfl rfl
  | [c] => exact iff_of_false Verdict.noConfusion (List.cons_ne_nil _ _)
  | c :: c' :: cs =>
    refine iff_of_false ?_ (List.cons_ne_nil _ _)
    rw [Verdict.choose]
    · split <;> exact Verdict.noConfusion
    all_goals simp

theorem verdict_eq_missing_iff :
    t.verdict name arguments = .missing ↔ t.candidates name arguments.length = [] :=
  choose_eq_missing_iff

/-- Where a search stands: the names of the types that were examined, and the types that wait with their
distances. -/
structure SearchState where
  examined : List String
  pending : List (FoundType × Nat)

namespace SearchState

/-- Where a search begins. -/
def start (t : FoundType) : SearchState := ⟨[], [(t, 0)]⟩

/-- What a search finds from here on. -/
def outcome (find : String → Option FoundType) (name : String) (arguments : List (Option String))
    (s : SearchState) : Verdict :=
  (search name arguments s.examined s.pending).run find

/-- The type that the search takes next is too far away. -/
def IsTooFar (s : SearchState) : Prop := ∃ x ∈ s.pending.head?, maxDistance < x.2

/-- A type that was examined before is left out, and one that has no such method makes room for its
supertypes. -/
inductive Step (find : String → Option FoundType) (name : String) (arguments : List (Option String)) :
    SearchState → SearchState → Prop where
  | skip {examined : List String} {t : FoundType} {distance : Nat} {rest : List (FoundType × Nat)} :
      distance ≤ maxDistance → t.qualifiedName ∈ examined →
      Step find name arguments ⟨examined, (t, distance) :: rest⟩ ⟨examined, rest⟩
  | expand {examined : List String} {t : FoundType} {distance : Nat}
      {rest : List (FoundType × Nat)} :
      distance ≤ maxDistance → t.qualifiedName ∉ examined →
      t.verdict name arguments = .missing →
      Step find name arguments ⟨examined, (t, distance) :: rest⟩
        ⟨t.qualifiedName :: examined, (t.parents find).map (·, distance + 1) ++ rest⟩

/-- Some steps lead from one state to the other. -/
abbrev Run (find : String → Option FoundType) (name : String) (arguments : List (Option String)) :
    SearchState → SearchState → Prop :=
  Relation.ReflTransGen (Step find name arguments)

/-- There are no further steps: no type waits, or the next one is too far away, or it decides. -/
inductive Ends (name : String) (arguments : List (Option String)) : SearchState → Verdict → Prop where
  | exhausted {examined : List String} : Ends name arguments ⟨examined, []⟩ .missing
  | tooFar {examined : List String} {t : FoundType} {distance : Nat}
      {rest : List (FoundType × Nat)} :
      maxDistance < distance → Ends name arguments ⟨examined, (t, distance) :: rest⟩ .missing
  | decided {examined : List String} {t : FoundType} {distance : Nat}
      {rest : List (FoundType × Nat)} :
      distance ≤ maxDistance → t.qualifiedName ∉ examined →
      t.verdict name arguments ≠ .missing →
      Ends name arguments ⟨examined, (t, distance) :: rest⟩ (t.verdict name arguments)

variable {s s' : SearchState} {v : Verdict}

theorem outcome_of_step (h : Step find name arguments s s') :
    s.outcome find name arguments = s'.outcome find name arguments := by
  cases h with
  | skip hnear hseen =>
    rw [outcome, search, if_neg (Nat.not_lt.mpr hnear), if_pos (List.contains_iff_mem.mpr hseen)]
    rfl
  | @expand examined t distance rest hnear hnew hverdict =>
    rw [outcome, search, if_neg (Nat.not_lt.mpr hnear),
      if_neg (mt List.contains_iff_mem.mp hnew), hverdict]
    have hrun := Inquiry.run_bind find t.supertypes fun ts =>
      search name arguments (t.qualifiedName :: examined) (ts.map (·, distance + 1) ++ rest)
    rw [run_supertypes] at hrun
    exact hrun

theorem outcome_of_run (h : Run find name arguments s s') :
    s.outcome find name arguments = s'.outcome find name arguments := by
  induction h with
  | refl => rfl
  | tail _ hstep ih => exact ih.trans (outcome_of_step hstep)

theorem outcome_of_ends (h : Ends name arguments s v) : s.outcome find name arguments = v := by
  cases h with
  | exhausted =>
    rw [outcome, search]
    rfl
  | tooFar hfar =>
    rw [outcome, search, if_pos hfar]
    rfl
  | decided hnear hnew hverdict =>
    rw [outcome, search, if_neg (Nat.not_lt.mpr hnear), if_neg (mt List.contains_iff_mem.mp hnew)]
    split
    · contradiction
    · rfl

/-- Where a search is not at its end there is a further step. -/
theorem ends_or_step (find : String → Option FoundType) (name : String)
    (arguments : List (Option String)) (s : SearchState) :
    (∃ v, Ends name arguments s v) ∨ ∃ s', Step find name arguments s s' := by
  obtain ⟨examined, pending⟩ := s
  match pending with
  | [] => exact .inl ⟨_, .exhausted⟩
  | (t, distance) :: rest =>
    by_cases hnear : distance ≤ maxDistance
    · by_cases hseen : t.qualifiedName ∈ examined
      · exact .inr ⟨_, .skip hnear hseen⟩
      · by_cases hverdict : t.verdict name arguments = .missing
        · exact .inr ⟨_, .expand hnear hseen hverdict⟩
        · exact .inl ⟨_, .decided hnear hseen hverdict⟩
    · exact .inl ⟨_, .tooFar (Nat.not_le.mp hnear)⟩

/-- Each step brings the waiting distances forward in an order that has no infinite descent. -/
theorem follows_of_step (h : Step find name arguments s s') :
    Follows (s'.pending.map Prod.snd) (s.pending.map Prod.snd) := by
  cases h with
  | @skip _ _ distance rest hnear _ => exact ⟨distance, 0, rest.map Prod.snd, rfl, hnear, rfl⟩
  | @expand _ t distance rest hnear _ _ =>
    refine ⟨distance, (t.parents find).length, rest.map Prod.snd, rfl, hnear, ?_⟩
    simp [Function.comp_def, List.map_const']

/-- Every search comes to an end, and what it finds is what it ends with. -/
theorem exists_end (find : String → Option FoundType) (name : String)
    (arguments : List (Option String)) (s : SearchState) :
    ∃ s' v, Run find name arguments s s' ∧ Ends name arguments s' v ∧
      s.outcome find name arguments = v := by
  rcases ends_or_step find name arguments s with ⟨v, hend⟩ | ⟨s₁, hstep⟩
  · exact ⟨s, v, .refl, hend, outcome_of_ends hend⟩
  · obtain ⟨s', v, hrun, hend, hv⟩ := exists_end find name arguments s₁
    exact ⟨s', v, .head hstep hrun, hend, (outcome_of_step hstep).trans hv⟩
termination_by s.pending.map Prod.snd
decreasing_by exact follows_of_step hstep

theorem outcome_of_isTooFar (h : s.IsTooFar) : s.outcome find name arguments = .missing := by
  obtain ⟨examined, pending⟩ := s
  obtain ⟨⟨t, distance⟩, hhead, hfar⟩ := h
  obtain ⟨rest, rfl⟩ := List.head?_eq_some_iff.mp hhead
  exact outcome_of_ends (.tooFar hfar)

/-- What holds of the first type and is passed on to supertypes holds of all types that wait. -/
theorem forall_pending_of_run {p : FoundType → Prop} (hp : ∀ t, p t → ∀ t' ∈ t.parents find, p t')
    (h : Run find name arguments s s') (hs : ∀ x ∈ s.pending, p x.1) : ∀ x ∈ s'.pending, p x.1 := by
  induction h with
  | refl => exact hs
  | tail _ hstep ih =>
    cases hstep with
    | skip => exact fun x hx => ih x (List.mem_cons_of_mem _ hx)
    | @expand _ t distance rest _ _ _ =>
      intro x hx
      rcases List.mem_append.mp hx with hx | hx
      · obtain ⟨t', ht', rfl⟩ := List.mem_map.mp hx
        exact hp t (ih (t, distance) List.mem_cons_self) t' ht'
      · exact ih x (List.mem_cons_of_mem _ hx)

theorem isAbove_of_run (h : Run find name arguments (start t) s) :
    ∀ x ∈ s.pending, IsAbove find t x.1 :=
  forall_pending_of_run (p := IsAbove find t) (fun _ hp _ ht' => hp.tail ht') h
    fun x hx => by rw [List.mem_singleton.mp hx]

/-- The types that were examined have different names, and no waiting type is further away than there are
such names. -/
structure IsMeasured (s : SearchState) : Prop where
  nodup : s.examined.Nodup
  distance_le : ∀ x ∈ s.pending, x.2 ≤ s.examined.length

private theorem isMeasured_start (t : FoundType) : (start t).IsMeasured where
  nodup := .nil
  distance_le x hx := by
    rw [List.mem_singleton.mp hx]
    exact Nat.le_refl 0

theorem IsMeasured.step (h : s.IsMeasured) (hstep : Step find name arguments s s') :
    s'.IsMeasured := by
  cases hstep with
  | skip => exact ⟨h.nodup, fun x hx => h.distance_le x (List.mem_cons_of_mem _ hx)⟩
  | @expand examined t distance rest _ hnew _ =>
    refine ⟨List.nodup_cons.mpr ⟨hnew, h.nodup⟩, fun x hx => ?_⟩
    rcases List.mem_append.mp hx with hx | hx
    · obtain ⟨t', -, rfl⟩ := List.mem_map.mp hx
      exact Nat.succ_le_succ (h.distance_le (t, distance) List.mem_cons_self)
    · exact Nat.le_succ_of_le (h.distance_le x (List.mem_cons_of_mem _ hx))

theorem IsMeasured.run (h : s.IsMeasured) (hrun : Run find name arguments s s') : s'.IsMeasured := by
  induction hrun with
  | refl => exact h
  | tail _ hstep ih => exact ih.step hstep

/-- Only names of types that waited are examined. -/
theorem examined_subset_of_run {names : List String} (hnames : ∀ t', IsAbove find t t' →
    t'.qualifiedName ∈ names) (h : Run find name arguments (start t) s) : s.examined ⊆ names := by
  induction h with
  | refl => exact List.nil_subset names
  | tail hrun hstep ih =>
    cases hstep with
    | skip => exact ih
    | @expand _ t' distance _ _ _ _ =>
      exact List.cons_subset.mpr
        ⟨hnames t' (isAbove_of_run hrun (t', distance) List.mem_cons_self), ih⟩

/-- Where a type has few supertypes, however they inherit from one another, none is too far away. -/
theorem not_isTooFar_of_few {names : List String} (hfew : names.length ≤ maxDistance)
    (hnames : ∀ t', IsAbove find t t' → t'.qualifiedName ∈ names)
    (h : Run find name arguments (start t) s) : ¬ s.IsTooFar := by
  rintro ⟨x, hx, hfar⟩
  have hmeasured := (isMeasured_start t).run h
  have hexamined : s.examined.length ≤ names.length :=
    (List.subperm_of_subset hmeasured.nodup (examined_subset_of_run hnames h)).length_le
  have hdistance := hmeasured.distance_le x (List.mem_of_mem_head? hx)
  omega

/-- Few types that have all of their supertypes among themselves are not too far away from one another. -/
theorem not_isTooFar_of_closed {ts : List FoundType} (hts : ∀ t ∈ ts, ∀ t' ∈ t.parents find, t' ∈ ts)
    (ht : t ∈ ts) (hfew : ts.length ≤ maxDistance) (h : Run find name arguments (start t) s) :
    ¬ s.IsTooFar := by
  have hnames : ∀ t', IsAbove find t t' → t'.qualifiedName ∈ ts.map FoundType.qualifiedName :=
    fun t' ht' => List.mem_map_of_mem (isAbove_mem hts ht ht')
  exact not_isTooFar_of_few (by rwa [List.length_map]) hnames h

end SearchState

theorem run_lookup_eq_outcome (t : FoundType) :
    (lookup t name arguments).run find = (SearchState.start t).outcome find name arguments := rfl

/-- A type alone in a unit without a package. -/
def loneType (kind : TypeKind) (name : String) (superclass : Option String) (interfaces : List String)
    (methods : List Method) : FoundType :=
  let d : TypeDeclaration :=
    ⟨name, [name], kind, superclass, interfaces, [], methods, [], .initializer .empty⟩
  .declared ⟨none, [], [d]⟩ d

/-- The types of a list are found by their names. -/
def hierarchy (ts : List FoundType) (name : String) : Option FoundType :=
  ts.find? (·.qualifiedName == name)

end StructureGraph.Resolution
