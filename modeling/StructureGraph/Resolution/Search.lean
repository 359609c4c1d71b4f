import StructureGraph.Resolution.FoundType
import StructureGraph.Resolution.Inquiry

namespace StructureGraph.Resolution

open StructureGraph.Java

/-- Types at a greater distance are not examined. -/
def maxDistance : Nat := 32

/-- The first of the waiting distances makes room for some that are one greater. -/
def Follows (new old : List Nat) : Prop :=
  ∃ n count rest,
    old = n :: rest ∧ n ≤ maxDistance ∧ new = List.replicate count (n + 1) ++ rest

theorem Follows.not_nil {ns : List Nat} : ¬ Follows ns [] := by
  rintro ⟨_, _, _, h, _⟩
  cases h

theorem acc_append {ms ns : List Nat} (hm : Acc Follows ms) (hn : Acc Follows ns) :
    Acc Follows (ms ++ ns) := by
  induction hm with
  | intro ms _ ih =>
    match ms, ih with
    | [], _ => exact hn
    | m :: ms, ih =>
      refine Acc.intro _ fun ks hk => ?_
      obtain ⟨n, count, rest, hold, hle, rfl⟩ := hk
      obtain ⟨rfl, rfl⟩ : m = n ∧ ms ++ ns = rest := by simpa using hold
      rw [← List.append_assoc]
      exact ih _ ⟨m, count, ms, rfl, hle, rfl⟩

theorem acc_nil : Acc Follows [] :=
  Acc.intro _ fun _ h => absurd h Follows.not_nil

theorem acc_replicate {n : Nat} (h : Acc Follows [n]) :
    ∀ count, Acc Follows (List.replicate count n)
  | 0 => acc_nil
  | count + 1 => acc_append h (acc_replicate h count)

theorem acc_singleton (n : Nat) : Acc Follows [n] := by
  refine Acc.intro _ fun ms h => ?_
  obtain ⟨m, count, rest, hold, hle, rfl⟩ := h
  obtain ⟨rfl, rfl⟩ : n = m ∧ rest = [] := by simpa [eq_comm] using hold
  exact acc_append (acc_replicate (acc_singleton (n + 1)) count) acc_nil
termination_by maxDistance + 1 - n

theorem wellFounded_follows : WellFounded Follows := by
  refine ⟨fun ns => ?_⟩
  induction ns with
  | nil => exact acc_nil
  | cons n ns ih => exact acc_append (acc_singleton n) ih

/-- Waiting lists in the order in which a search goes through them. -/
instance waiting : WellFoundedRelation (List Nat) := ⟨Follows, wellFounded_follows⟩

/-- The type that is meant by a name written inside the given types. Primitive types and arrays
have no methods, so they are never found. -/
def writtenType? (u : CompilationUnit) (scope : List String) (written : String) :
    Inquiry FoundType (Option FoundType) :=
  let candidates := u.typeCandidates scope written
  if candidates.head?.any isPrimitive || written.toList.getLast? == some ']' then .done none
  else .first? candidates

/-- Those of some written types that are found. -/
def writtenTypes (u : CompilationUnit) (scope : List String) :
    List String → Inquiry FoundType (List FoundType)
  | [] => .done []
  | w :: ws => do
    let found ← writtenType? u scope w
    let others ← writtenTypes u scope ws
    pure (found.toList ++ others)

/-- The direct supertypes in the order in which they are searched: the superclass, the interfaces,
and the root of all classes where no superclass is named. -/
def FoundType.supertypes : FoundType → Inquiry FoundType (List FoundType)
  | declared u d => do
    let named ← writtenTypes u d.path (d.superclass.toList ++ d.interfaces)
    pure (named ++ if d.superclass.isNone then [.builtin .object] else [])
  | builtin t =>
    match t.superclass with
    | some name => do
      let found ← Inquiry.type? name
      pure found.toList
    | none => pure []

/-- Search the waiting types, nearest branch first. Types that were examined before are left out,
and the first verdict other than a missing method counts. -/
def search (name : String) (arguments : List (Option String)) (examined : List String) :
    List (FoundType × Nat) → Inquiry FoundType Verdict
  | [] => .done .missing
  | (t, distance) :: rest =>
    if maxDistance < distance then .done .missing
    else if examined.contains t.qualifiedName then search name arguments examined rest
    else
      match t.verdict name arguments with
      | .missing =>
        t.supertypes.bind fun ts =>
          search name arguments (t.qualifiedName :: examined)
            (ts.map (·, distance + 1) ++ rest)
      | verdict => .done verdict
termination_by pending => pending.map Prod.snd
decreasing_by
  · exact ⟨distance, 0, rest.map Prod.snd, rfl, by omega, rfl⟩
  · refine ⟨distance, ts.length, rest.map Prod.snd, rfl, by omega, ?_⟩
    simp [Function.comp_def, List.map_const']

/-- The verdict on a call to a method of a type. -/
def lookup (t : FoundType) (name : String) (arguments : List (Option String)) :
    Inquiry FoundType Verdict :=
  search name arguments [] [(t, 0)]

end StructureGraph.Resolution
