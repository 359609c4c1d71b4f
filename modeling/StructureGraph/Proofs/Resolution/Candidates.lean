import StructureGraph.Proofs.Resolution.Sources
import StructureGraph.Resolution.Search

namespace StructureGraph.Resolution

open StructureGraph.Java
open StructureGraph.Text (lastSegment)

variable {u u' : CompilationUnit} {d d' : TypeDeclaration} {scope : List String}
  {name written candidate : String}

theorem findSome?_filterMap {α β γ : Type} (f : α → Option β) (g : β → Option γ) (xs : List α) :
    (xs.filterMap f).findSome? g = xs.findSome? fun x => (f x).bind g := by
  induction xs with
  | nil => rfl
  | cons x xs ih =>
    rw [List.filterMap_cons, List.findSome?_cons]
    cases f x with
    | none => exact ih
    | some y => rw [List.findSome?_cons, Option.bind_some, ih]

theorem descending_depths (n : Nat) : (List.range n).reverse.Pairwise (· > ·) :=
  List.pairwise_reverse.mpr List.pairwise_lt_range

theorem visibleType?_eq_some_iff : u.visibleType? scope name = some d ↔
    ∃ depth ≤ scope.length, u.typeByPath? (scope.take depth ++ [name]) = some d ∧
      ∀ deeper ≤ scope.length, depth < deeper →
        u.typeByPath? (scope.take deeper ++ [name]) = none := by
  rw [CompilationUnit.visibleType?, findSome?_eq_some_iff_of_descending (descending_depths _)]
  simp only [List.mem_reverse, List.mem_range, Nat.lt_succ_iff]

private theorem visibleType?_eq_none_iff : u.visibleType? scope name = none ↔
    ∀ depth ≤ scope.length, u.typeByPath? (scope.take depth ++ [name]) = none := by
  simp only [CompilationUnit.visibleType?, List.findSome?_eq_none_iff, List.mem_reverse, List.mem_range,
    Nat.lt_succ_iff]

theorem path_of_visibleType? (h : u.visibleType? scope name = some d) :
    ∃ depth ≤ scope.length, d.path = scope.take depth ++ [name] := by
  obtain ⟨depth, hdepth, hd, -⟩ := visibleType?_eq_some_iff.mp h
  exact ⟨depth, hdepth, path_of_typeByPath? hd⟩

/-- One of the enclosing types that lie further inside than the first few has a member type of this name. -/
def IsHidden (u : CompilationUnit) (scope : List String) (depth : Nat) (name : String) : Prop :=
  ∃ deeper ≤ scope.length, depth < deeper ∧ u.typeByPath? (scope.take deeper ++ [name]) ≠ none

/-- Where no type further inside hides it, a name means the same inside all the types as inside the first
few. -/
theorem visibleType?_take {depth : Nat} (hdepth : depth ≤ scope.length) (h : ¬IsHidden u scope depth name) :
    u.visibleType? scope name = u.visibleType? (scope.take depth) name := by
  have hnone : ∀ deeper ≤ scope.length, depth < deeper →
      u.typeByPath? (scope.take deeper ++ [name]) = none := by
    intro deeper hle hlt
    by_contra hne
    exact h ⟨deeper, hle, hlt, hne⟩
  have htake : ∀ k ≤ depth, (scope.take depth).take k = scope.take k := fun k hk => by
    rw [List.take_take, Nat.min_eq_left hk]
  have hlength : (scope.take depth).length = depth := List.length_take_of_le hdepth
  ext d
  rw [visibleType?_eq_some_iff, visibleType?_eq_some_iff, hlength]
  constructor
  · rintro ⟨k, hk, hd, hinner⟩
    have hkd : k ≤ depth := by
      by_contra hlt
      rw [hnone k hk (by omega)] at hd
      cases hd
    refine ⟨k, hkd, by rwa [htake k hkd], fun deeper hle hlt => ?_⟩
    rw [htake deeper hle]
    exact hinner deeper (hle.trans hdepth) hlt
  · rintro ⟨k, hkd, hd, hinner⟩
    refine ⟨k, hkd.trans hdepth, by rwa [htake k hkd] at hd, fun deeper hle hlt => ?_⟩
    by_cases hin : deeper ≤ depth
    · rw [← htake deeper hin]
      exact hinner deeper hin hlt
    · exact hnone deeper hle (by omega)

theorem exists_visibleType?_of_isHidden {depth : Nat} (h : IsHidden u scope depth name) :
    ∃ d deeper, u.visibleType? scope name = some d ∧ depth < deeper ∧ deeper ≤ scope.length ∧
      d.path = scope.take deeper ++ [name] := by
  obtain ⟨inside, hle, hlt, hne⟩ := h
  cases hv : u.visibleType? scope name with
  | none => exact absurd (visibleType?_eq_none_iff.mp hv inside hle) hne
  | some d =>
    obtain ⟨deeper, hdeeper, hd, hinner⟩ := visibleType?_eq_some_iff.mp hv
    refine ⟨d, deeper, rfl, ?_, hdeeper, path_of_typeByPath? hd⟩
    by_contra hout
    exact hne (hinner inside hle (by omega))

private theorem map_path_typeByPath? (u : CompilationUnit) (path : List String) :
    (u.typeByPath? path).map TypeDeclaration.path =
      (u.types.map TypeDeclaration.path).find? (· == path) := by
  rw [CompilationUnit.typeByPath?, List.find?_map]
  rfl

private theorem map_path_visibleType?_congr
    (htypes : u.types.map TypeDeclaration.path = u'.types.map TypeDeclaration.path)
    (scope : List String) (name : String) :
    (u.visibleType? scope name).map TypeDeclaration.path =
      (u'.visibleType? scope name).map TypeDeclaration.path := by
  simp only [CompilationUnit.visibleType?, List.map_findSome?, Function.comp_def, map_path_typeByPath?,
    htypes]

private theorem inPackage_congr (hpackage : u.package = u'.package) : u.inPackage = u'.inPackage := by
  funext name
  rw [CompilationUnit.inPackage, CompilationUnit.inPackage, hpackage]

/-- Two units of one package whose imports and whose paths of types are the same read each name alike. -/
theorem typeCandidates_congr (hpackage : u.package = u'.package) (himports : u.imports = u'.imports)
    (htypes : u.types.map TypeDeclaration.path = u'.types.map TypeDeclaration.path) :
    u.typeCandidates = u'.typeCandidates := by
  funext scope written
  have hinside := inPackage_congr hpackage
  have hvisible := map_path_visibleType?_congr htypes scope (TypeText.base (TypeText.erase written))
  simp only [CompilationUnit.typeCandidates, CompilationUnit.singleImport?, CompilationUnit.wildcardImports,
    CompilationUnit.typePath, himports, hinside]
  generalize u.visibleType? scope (TypeText.base (TypeText.erase written)) = visible at hvisible ⊢
  generalize u'.visibleType? scope (TypeText.base (TypeText.erase written)) = visible' at hvisible ⊢
  cases visible with
  | none => rw [Option.map_eq_none_iff.mp hvisible.symm]
  | some d =>
    obtain ⟨d', rfl, hpath⟩ := Option.map_eq_some_iff.mp hvisible.symm
    simp only [hpath]

private theorem typePath_congr (hpackage : u.package = u'.package) (hpath : d.path = d'.path) :
    u.typePath d = u'.typePath d' := by
  rw [CompilationUnit.typePath, CompilationUnit.typePath, inPackage_congr hpackage, hpath]

theorem methodSignature_congr (hpackage : u.package = u'.package) (himports : u.imports = u'.imports)
    (htypes : u.types.map TypeDeclaration.path = u'.types.map TypeDeclaration.path)
    (hpath : d.path = d'.path) : u.methodSignature d = u'.methodSignature d' := by
  have hparameter : u.qualifiedParameter d.path = u'.qualifiedParameter d'.path := by
    funext p
    rw [CompilationUnit.qualifiedParameter, CompilationUnit.qualifiedParameter, CompilationUnit.qualifyType,
      CompilationUnit.qualifyType, typeCandidates_congr hpackage himports htypes, hpath]
  funext m
  rw [CompilationUnit.methodSignature, CompilationUnit.methodSignature, typePath_congr hpackage hpath,
    hparameter]

/-- The simple name in a written type. -/
def baseName (written : String) : String := TypeText.base (TypeText.erase written)

/-- Where the type is written may make a difference: it is no primitive type, its name has no dots, and no
single-type import binds it. -/
structure IsScoped (u : CompilationUnit) (written : String) : Prop where
  nonempty : baseName written ≠ ""
  notPrimitive : isPrimitive (baseName written) = false
  simple : '.' ∉ (baseName written).toList
  unbound : u.singleImport? (baseName written) = none

/-- The names that a simple name may mean where no type of the unit is visible. -/
def outerCandidates (u : CompilationUnit) (name : String) : List String :=
  let near := u.inPackage name :: u.wildcardImports.map fun i => i.path ++ "." ++ name
  if isLangType name then ("java.lang." ++ name) :: near else near ++ ["java.lang." ++ name]

theorem typeCandidates_of_isScoped (h : IsScoped u written) (scope : List String) :
    u.typeCandidates scope written =
      match u.visibleType? scope (baseName written) with
      | some d => [u.typePath d]
      | none => outerCandidates u (baseName written) := by
  have hname : ¬(baseName written = "" ∨ isPrimitive (baseName written) ∨
      (baseName written).toList.contains '.') := by
    simp [h.nonempty, h.notPrimitive, h.simple]
  rw [CompilationUnit.typeCandidates]
  simp only [← baseName.eq_def, if_neg hname, h.unbound]
  cases u.visibleType? scope (baseName written) <;> rfl

theorem typeCandidates_of_not_isScoped (h : ¬IsScoped u written) (scope scope' : List String) :
    u.typeCandidates scope written = u.typeCandidates scope' written := by
  rw [CompilationUnit.typeCandidates, CompilationUnit.typeCandidates]
  simp only [← baseName.eq_def]
  split
  · rfl
  · rename_i hname
    cases himport : u.singleImport? (baseName written) with
    | some i => rfl
    | none =>
      simp only [not_or, Bool.not_eq_true, List.contains_eq_mem, decide_eq_false_iff_not] at hname
      exact (h ⟨hname.1, hname.2.1, hname.2.2, himport⟩).elim

/-- A qualified name that a name may mean inside the given types: the name itself, what an import of a single
type binds it to, a type of the unit that is visible there, or a type of the package, of a package that is
imported as a whole, or of `java.lang`. -/
inductive MayMean (u : CompilationUnit) (scope : List String) (name : String) : String → Prop where
  | itself : MayMean u scope name name
  | imported {i : Import} : i ∈ u.imports → i.simpleName? = some name → MayMean u scope name i.path
  | visible {d : TypeDeclaration} : u.visibleType? scope name = some d → MayMean u scope name (u.typePath d)
  | inPackage : MayMean u scope name (u.inPackage name)
  | inImported {i : Import} : i ∈ u.imports → MayMean u scope name (i.path ++ "." ++ name)
  | inLang : MayMean u scope name ("java.lang." ++ name)

theorem mayMean_of_mem_typeCandidates (h : candidate ∈ u.typeCandidates scope written) :
    MayMean u scope (baseName written) candidate := by
  rw [CompilationUnit.typeCandidates] at h
  simp only [← baseName.eq_def] at h
  split at h
  · rw [List.mem_singleton.mp h]
    exact .itself
  · split at h
    · rename_i i hi
      rw [List.mem_singleton.mp h]
      have hbound := List.find?_some hi
      exact .imported (List.mem_of_find?_eq_some hi) (by simpa using (Bool.and_eq_true_iff.mp hbound).2)
    · split at h
      · rename_i d hd
        rw [List.mem_singleton.mp h]
        exact .visible hd
      · have hwildcard : ∀ c ∈ u.wildcardImports.map (fun i => i.path ++ "." ++ baseName written),
            MayMean u scope (baseName written) c := by
          refine List.forall_mem_map.mpr fun i hi => .inImported (List.mem_of_mem_filter hi)
        have hnear := List.forall_mem_cons.mpr ⟨MayMean.inPackage, hwildcard⟩
        have hlang : MayMean u scope (baseName written) _ := .inLang
        split at h
        · exact List.forall_mem_cons.mpr ⟨hlang, hnear⟩ _ h
        · exact List.forall_mem_append.mpr ⟨hnear, List.forall_mem_singleton.mpr hlang⟩ _ h

theorem typeCandidates_ne_nil (u : CompilationUnit) (scope : List String) (written : String) :
    u.typeCandidates scope written ≠ [] := by
  rw [CompilationUnit.typeCandidates]
  split
  · exact List.cons_ne_nil _ _
  · split
    · exact List.cons_ne_nil _ _
    · split
      · exact List.cons_ne_nil _ _
      · simp only
        split
        · exact List.cons_ne_nil _ _
        · exact List.append_ne_nil_of_right_ne_nil _ (List.cons_ne_nil _ _)

private theorem lastSegment_inPackage (u : CompilationUnit) (name : String) :
    lastSegment '.' (u.inPackage name) = lastSegment '.' name := by
  rw [CompilationUnit.inPackage]
  split
  · exact Text.lastSegment_join _ _
  · rfl

private theorem lastSegment_intercalate (names : List String) (name : String) :
    lastSegment '.' (String.intercalate "." (names ++ [name])) = lastSegment '.' name := by
  by_cases h : names = []
  · rw [h, List.nil_append, String.intercalate_singleton]
  · rw [String.intercalate_append_of_ne_nil h (List.cons_ne_nil name []), String.intercalate_singleton]
    exact Text.lastSegment_join _ _

/-- What a name may mean ends as the name does. -/
theorem MayMean.lastSegment_eq (h : MayMean u scope name candidate) :
    lastSegment '.' candidate = lastSegment '.' name := by
  cases h with
  | itself => rfl
  | imported hi hname =>
    rename_i i
    rw [Import.simpleName?] at hname
    split at hname
    · cases hname
    · rw [← Option.some.inj hname, Text.lastSegment_of_not_mem (Text.not_mem_lastSegment i.path)]
  | visible hd =>
    obtain ⟨depth, -, hpath⟩ := path_of_visibleType? hd
    rw [CompilationUnit.typePath, lastSegment_inPackage, hpath, lastSegment_intercalate]
  | inPackage => exact lastSegment_inPackage u name
  | inImported hi => exact Text.lastSegment_join _ _
  | inLang =>
    have hdotted : "java.lang." = "java.lang" ++ String.singleton '.' := by decide
    rw [hdotted, Text.lastSegment_join]

/-- The package of the unit, the paths of its imports and the names of its types are made of these characters. -/
structure IsMadeOf (p : Char → Prop) (u : CompilationUnit) : Prop where
  package : ∀ package ∈ u.package, ∀ c ∈ package.toList, p c
  imports : ∀ i ∈ u.imports, ∀ c ∈ i.path.toList, p c
  types : ∀ d ∈ u.types, ∀ n ∈ d.path, ∀ c ∈ n.toList, p c

section

variable {p : Char → Prop} (hu : IsMadeOf p u) (hdot : p '.')

include hdot

private theorem forall_mem_append_dot {s t : String} (hs : ∀ c ∈ s.toList, p c) (ht : ∀ c ∈ t.toList, p c) :
    ∀ c ∈ (s ++ "." ++ t).toList, p c := by
  rw [String.toList_append, String.toList_append]
  exact List.forall_mem_append.mpr
    ⟨List.forall_mem_append.mpr ⟨hs, List.forall_mem_singleton.mpr hdot⟩, ht⟩

include hu

theorem forall_mem_inPackage (hname : ∀ c ∈ name.toList, p c) : ∀ c ∈ (u.inPackage name).toList, p c := by
  rw [CompilationUnit.inPackage]
  split
  · rename_i package hpackage
    exact forall_mem_append_dot hdot (hu.package package hpackage) hname
  · exact hname

theorem forall_mem_typePath (hpath : ∀ n ∈ d.path, ∀ c ∈ n.toList, p c) :
    ∀ c ∈ (u.typePath d).toList, p c := by
  have hjoined := @Text.forall_mem_intercalate '.' p d.path hdot hpath
  exact forall_mem_inPackage hu hdot hjoined

/-- What a name may mean is made of what the unit and the name are made of, and of `java.lang`. -/
theorem MayMean.forall_mem (hlang : ∀ c ∈ "java.lang".toList, p c) (hname : ∀ c ∈ name.toList, p c)
    (h : MayMean u scope name candidate) : ∀ c ∈ candidate.toList, p c := by
  cases h with
  | itself => exact hname
  | imported hi _ => exact hu.imports _ hi
  | visible hd =>
    obtain ⟨depth, -, hfound, -⟩ := visibleType?_eq_some_iff.mp hd
    exact forall_mem_typePath hu hdot (hu.types _ (List.mem_of_find?_eq_some hfound))
  | inPackage => exact forall_mem_inPackage hu hdot hname
  | inImported hi => exact forall_mem_append_dot hdot (hu.imports _ hi) hname
  | inLang =>
    have hdotted : "java.lang." = "java.lang" ++ "." := by decide
    rw [hdotted]
    exact forall_mem_append_dot hdot hlang hname

end

private theorem isPrimitive_of_dot {s : String} (h : '.' ∈ s.toList) : isPrimitive s = false := by
  have hnone : ∀ p ∈ primitives, '.' ∉ p.toList := by decide
  rw [isPrimitive, ← Bool.not_eq_true, List.contains_iff_mem]
  exact fun hs => hnone s hs h

private theorem isPrimitive_intercalate {names : List String} (h : isPrimitive name = false) :
    isPrimitive (String.intercalate "." (names ++ [name])) = false := by
  cases names with
  | nil => rwa [List.nil_append, String.intercalate_singleton]
  | cons n names =>
    refine isPrimitive_of_dot ?_
    rw [String.intercalate_append_of_ne_nil (List.cons_ne_nil n names) (List.cons_ne_nil name [])]
    simp

private theorem not_isPrimitive_head (h : IsScoped u written) (scope : List String) :
    (u.typeCandidates scope written).head?.any isPrimitive = false := by
  rw [typeCandidates_of_isScoped h]
  cases hv : u.visibleType? scope (baseName written) with
  | some d =>
    obtain ⟨depth, -, hpath⟩ := path_of_visibleType? hv
    have hd : isPrimitive (u.typePath d) = false := by
      rw [typePath_eq_intercalate (by simp [hpath]), hpath, ← List.append_assoc]
      exact isPrimitive_intercalate h.notPrimitive
    simpa using hd
  | none =>
    have hname : u.inPackage (baseName written) =
        String.intercalate "." (packageNames u ++ [baseName written]) := by
      rw [← inPackage_intercalate (List.cons_ne_nil _ []), String.intercalate_singleton]
    have hnear : isPrimitive (u.inPackage (baseName written)) = false := by
      rw [hname]
      exact isPrimitive_intercalate h.notPrimitive
    have hlang : isPrimitive ("java.lang." ++ baseName written) = false :=
      isPrimitive_of_dot (by simp)
    simp only [outerCandidates]
    split
    · simpa using hlang
    · simpa using hnear

/-- No primitive type is looked up, and no array. -/
theorem run_writtenType?_of_isScoped (find : String → Option FoundType) (hscoped : IsScoped u written)
    (hend : written.toList.getLast? ≠ some ']') (scope : List String) :
    (writtenType? u scope written).run find = (u.typeCandidates scope written).findSome? find := by
  have hhead := not_isPrimitive_head hscoped scope
  rw [writtenType?, if_neg (by simp [hhead, hend]), Inquiry.run_first?]

end StructureGraph.Resolution
