import StructureGraph.Proofs.Resolution.Candidates
import StructureGraph.Proofs.Resolution.Steps
import StructureGraph.Resolution.Call
import StructureGraph.Resolution.Sources

namespace StructureGraph.Resolution

open StructureGraph.Java

variable {u : CompilationUnit} {scope : List String} {depth : Nat} {name written : String}

private theorem length_intercalate_lt (before : List String) {inside : List String} (h : inside ≠ [])
    (last : String) :
    (String.intercalate "." (before ++ [last])).length <
      (String.intercalate "." (before ++ inside ++ [last])).length := by
  have hlonger : (String.intercalate "." [last]).length <
      (String.intercalate "." (inside ++ [last])).length := by
    have hdot : ".".length = 1 := rfl
    rw [String.intercalate_append_of_ne_nil h (List.cons_ne_nil last []), String.length_append,
      String.length_append, hdot]
    omega
  by_cases hbefore : before = []
  · simpa [hbefore] using hlonger
  · rw [List.append_assoc, String.intercalate_append_of_ne_nil hbefore (List.cons_ne_nil last []),
      String.intercalate_append_of_ne_nil hbefore (by simp)]
    simp only [String.length_append]
    omega

/-- Among the types that a name may mean is one that is declared no further inside than it is read. -/
theorem exists_candidate_intercalate (hscoped : IsScoped u written) (scope : List String) :
    ∃ depth ≤ scope.length,
      String.intercalate "." (packageNames u ++ scope.take depth ++ [baseName written]) ∈
        u.typeCandidates scope written := by
  rw [typeCandidates_of_isScoped hscoped]
  cases hd : u.visibleType? scope (baseName written) with
  | some d =>
    obtain ⟨depth, hdepth, hpath⟩ := path_of_visibleType? hd
    refine ⟨depth, hdepth, ?_⟩
    rw [List.append_assoc, ← hpath, ← typePath_eq_intercalate (by simp [hpath])]
    exact List.mem_singleton_self _
  | none =>
    refine ⟨0, Nat.zero_le _, ?_⟩
    have hnear : u.inPackage (baseName written) ∈ outerCandidates u (baseName written) := by
      rw [outerCandidates]
      split <;> simp
    rwa [List.take_zero, List.append_nil, ← inPackage_intercalate (List.cons_ne_nil _ []),
      String.intercalate_singleton]

/-- A hidden name means nothing but the type further inside. -/
theorem typeCandidates_of_isHidden (hscoped : IsScoped u written) (hdepth : depth ≤ scope.length)
    (h : IsHidden u scope depth (baseName written)) :
    ∃ d, u.typeCandidates scope written = [u.typePath d] ∧
      ∃ candidate ∈ u.typeCandidates (scope.take depth) written, candidate ≠ u.typePath d := by
  obtain ⟨d, deeper, hd, hlt, hle, hpath⟩ := exists_visibleType?_of_isHidden h
  refine ⟨d, by rw [typeCandidates_of_isScoped hscoped, hd], ?_⟩
  obtain ⟨k, hk, hmem⟩ := exists_candidate_intercalate hscoped (scope.take depth)
  refine ⟨_, hmem, fun heq => ?_⟩
  rw [List.length_take_of_le hdepth] at hk
  -- The names of the types between the two places make the hidden name's meaning the longer one.
  have hinside : scope.take deeper = scope.take k ++ (scope.take deeper).drop k := by
    have hfront : (scope.take deeper).take k = scope.take k := by
      rw [List.take_take, Nat.min_eq_left (by omega)]
    rw [← hfront, List.take_append_drop]
  have hne : (scope.take deeper).drop k ≠ [] := by
    rw [ne_eq, List.drop_eq_nil_iff, List.length_take_of_le hle]
    omega
  have hshorter := length_intercalate_lt (packageNames u ++ scope.take k) hne (baseName written)
  rw [typePath_eq_intercalate (by simp [hpath]), hpath, hinside, List.take_take,
    Nat.min_eq_left hk] at heq
  rw [heq] at hshorter
  simp at hshorter

/-- A written type means the same at a place as in one of the types that enclose it, whichever types are
found, just in case no type further inside hides it. -/
theorem run_writtenType?_take_iff (hdepth : depth ≤ scope.length) :
    (∀ find, (writtenType? u scope written).run find =
        (writtenType? u (scope.take depth) written).run find) ↔
      (IsScoped u written → written.toList.getLast? ≠ some ']' →
        ¬IsHidden u scope depth (baseName written)) := by
  constructor
  · intro hsame hscoped hend hhidden
    obtain ⟨d, hcandidates, candidate, hmem, hne⟩ := typeCandidates_of_isHidden hscoped hdepth hhidden
    let find (name : String) : Option FoundType :=
      if name = candidate then some (.builtin .object) else none
    have hread := hsame find
    rw [run_writtenType?_of_isScoped find hscoped hend, run_writtenType?_of_isScoped find hscoped hend,
      hcandidates] at hread
    have hmissed : [u.typePath d].findSome? find = none := by
      simp [find, hne.symm]
    rw [hmissed] at hread
    have hnone := List.findSome?_eq_none_iff.mp hread.symm candidate hmem
    simp [find] at hnone
  · intro h find
    by_cases hscoped : IsScoped u written
    · by_cases hend : written.toList.getLast? = some ']'
      · rw [writtenType?, writtenType?, if_pos (by simp [hend]), if_pos (by simp [hend])]
      · have hcandidates : u.typeCandidates scope written = u.typeCandidates (scope.take depth) written := by
          rw [typeCandidates_of_isScoped hscoped, typeCandidates_of_isScoped hscoped,
            visibleType?_take hdepth (h hscoped hend)]
        rw [writtenType?, writtenType?, hcandidates]
    · rw [writtenType?, writtenType?, typeCandidates_of_not_isScoped hscoped scope (scope.take depth)]

namespace Site

/-- The innermost of the enclosing types that has a field of this name has this path's first names. -/
structure IsNearestField (s : Site) (name : String) (depth : Nat) (f : Field) : Prop where
  positive : 1 ≤ depth
  le : depth ≤ s.declaration.path.length
  declared : ∃ d, s.unit.typeByPath? (s.declaration.path.take depth) = some d ∧ d.field? name = some f
  nearest : ∀ deeper ≤ s.declaration.path.length, depth < deeper →
    ∀ d, s.unit.typeByPath? (s.declaration.path.take deeper) = some d → d.field? name = none

variable {s : Site} {f : Field}

private theorem variableType?_of_isNearestField (hbody : s.body.variableType? name = none)
    (h : s.IsNearestField name depth f) : s.variableType? name = some f.typeName := by
  obtain ⟨d, hd, hf⟩ := h.declared
  have hdepth : depth - 1 + 1 = depth := Nat.sub_add_cancel h.positive
  rw [variableType?, hbody, Option.none_or, enclosing, findSome?_filterMap,
    findSome?_eq_some_iff_of_descending (descending_depths _)]
  refine ⟨depth - 1, ?_, ?_, fun deeper hmem hlt => ?_⟩
  · have hle := h.le
    simp only [List.mem_reverse, List.mem_range]
    omega
  · rw [hdepth, hd, Option.bind_some, hf]
    rfl
  · simp only [List.mem_reverse, List.mem_range] at hmem
    cases hinner : s.unit.typeByPath? (s.declaration.path.take (deeper + 1)) with
    | none => rfl
    | some d' =>
      rw [Option.bind_some, h.nearest (deeper + 1) (by omega) (by omega) d' hinner]
      rfl

end Site

/-- The type of a field on which a call is made is read at the call. It is the type that is meant where the
field is declared, whichever types are found, just in case no type of that name is declared further inside. -/
theorem field_type_read_at_call (s : Site) (name : String) (depth : Nat) (f : Field)
    (hsimple : '.' ∉ name.toList) (hbody : s.body.variableType? name = none)
    (hfield : s.IsNearestField name depth f) :
    (∀ find, (s.receiverType? (.name name)).run find = (s.writtenType? f.typeName).run find) ∧
    ((∀ find, (s.receiverType? (.name name)).run find =
        (writtenType? s.unit (s.declaration.path.take depth) f.typeName).run find) ↔
      (IsScoped s.unit f.typeName → f.typeName.toList.getLast? ≠ some ']' →
        ¬IsHidden s.unit s.declaration.path depth (baseName f.typeName))) := by
  have hreceiver : s.receiverType? (.name name) = s.writtenType? f.typeName := by
    rw [Site.receiverType?, Site.namedType?, if_neg (by simpa using hsimple),
      Site.variableType?_of_isNearestField hbody hfield]
  rw [hreceiver]
  exact ⟨fun find => rfl, run_writtenType?_take_iff hfield.le⟩

/-- A call in `A.I` on a field of `A`. The type of the field is written `B`, and `A.I` has a member `B`. -/
def innerCall : Site :=
  let m : Method := ⟨"m", .packageAccess, false, [], .empty⟩
  let f : Method := ⟨"f", .packageAccess, false, [], ⟨[⟨"m", .name "b", [], 1⟩], [], []⟩⟩
  let b : Field := ⟨"b", "B", .packageAccess, false⟩
  let outer : TypeDeclaration :=
    ⟨"A", ["A"], .classType, none, [], [b], [], [], .initializer .empty⟩
  let inner : TypeDeclaration :=
    ⟨"I", ["A", "I"], .classType, none, [], [], [f], [], .initializer .empty⟩
  let member : TypeDeclaration :=
    ⟨"B", ["A", "I", "B"], .classType, none, [], [], [m], [], .initializer .empty⟩
  ⟨⟨none, [], [outer, inner, member]⟩, inner, f⟩

private theorem innerCall_isNearestField :
    innerCall.IsNearestField "b" 1 ⟨"b", "B", .packageAccess, false⟩ where
  positive := le_rfl
  le := by decide
  declared := ⟨innerCall.unit.types[0], by decide, by decide⟩
  nearest := by
    intro deeper hle hlt d hd
    obtain rfl : deeper = 2 := by
      have htwo : innerCall.declaration.path.length = 2 := rfl
      omega
    have hinner : innerCall.unit.typeByPath? (innerCall.declaration.path.take 2) =
        some innerCall.declaration := by decide
    rw [hinner, Option.some.injEq] at hd
    rw [← hd]
    rfl

theorem field_type_read_at_call_inner :
    innerCall.IsNearestField "b" 1 ⟨"b", "B", .packageAccess, false⟩ ∧
      IsHidden innerCall.unit innerCall.declaration.path 1 "B" ∧
      ¬∀ find, (innerCall.receiverType? (.name "b")).run find =
        (writtenType? innerCall.unit ["A"] "B").run find := by
  have hhidden : IsHidden innerCall.unit innerCall.declaration.path 1 "B" :=
    ⟨2, by decide, by decide, by decide⟩
  have hread := field_type_read_at_call innerCall "b" 1 _ (by decide) rfl innerCall_isNearestField
  refine ⟨innerCall_isNearestField, hhidden, fun hsame => ?_⟩
  have hscoped : IsScoped innerCall.unit "B" := ⟨by decide, by decide, by decide, by decide⟩
  exact hread.2.mp hsame hscoped (by decide) hhidden

/-- The type of the field is `B` of another file in `A`, but the call is resolved to the member of `A.I`. -/
theorem field_type_hidden_by_member :
    let files := (((Files.empty ["home"]).writeText "A.java"
      "class A { B b; class I { class B { void m() {} } void f() { b.m(); } } }").1.writeText
      "B.java" "class B { void m() {} }").1
    let find := findType? files (originsOf ["."])
    loadUnit? files "A.java" = some innerCall.unit ∧
      innerCall.IsNearestField "b" 1 ⟨"b", "B", .packageAccess, false⟩ ∧
      ((innerCall.receiverType? (.name "b")).run find).map FoundType.qualifiedName = some "A.I.B" ∧
      ((writtenType? innerCall.unit ["A"] "B").run find).map FoundType.qualifiedName = some "B" := by
  intro files find
  exact ⟨by decide +kernel, innerCall_isNearestField, by decide +kernel, by decide +kernel⟩

end StructureGraph.Resolution
