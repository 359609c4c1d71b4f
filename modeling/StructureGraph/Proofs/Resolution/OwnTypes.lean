import StructureGraph.Proofs.Java.Words
import StructureGraph.Proofs.Resolution.Candidates
import StructureGraph.Proofs.Resolution.Scope
import StructureGraph.Proofs.Workspace.Survey

namespace StructureGraph.Resolution

open StructureGraph.Java
open StructureGraph.Text (segments)

variable {f : Files} {directory path name written : String} {u : CompilationUnit} {d : TypeDeclaration}

private theorem isWord_of_mem_types {n : String} (hu : readUnit f path = .ok u) (hd : d ∈ u.types)
    (hn : n ∈ d.path) :
    IsWord n := by
  rw [readUnit] at hu
  split at hu
  · exact isWord_of_mem_path hu hd hn
  · cases hu

private theorem mem_types_of_visibleType? {scope : List String} (h : u.visibleType? scope name = some d) :
    d ∈ u.types := by
  obtain ⟨_, -, hd, -⟩ := visibleType?_eq_some_iff.mp h
  exact mem_types_of_typeByPath? hd

private theorem isWord_of_visibleType? {scope : List String} (hu : readUnit f path = .ok u)
    (h : u.visibleType? scope name = some d) : IsWord name := by
  obtain ⟨_, -, hpath⟩ := path_of_visibleType? h
  exact isWord_of_mem_types hu (mem_types_of_visibleType? h) (by simp [hpath])

/-- The names that a qualified name is cut into are those it was made of. -/
theorem segments_typePath (hu : readUnit f path = .ok u) (hd : d ∈ u.types) (hne : d.path ≠ []) :
    segments '.' (u.typePath d) = packageNames u ++ d.path := by
  rw [typePath_eq_intercalate hne]
  refine Text.segments_intercalate (by simp [hne]) fun s hs => ?_
  rcases List.mem_append.mp hs with hs | hs
  · exact no_dot_of_mem_packageNames hs
  · exact (isWord_of_mem_types hu hd hs).no_dot

/-- Some names are those of a package and those of the path of a type, which the directory declares there. -/
structure Declares (f : Files) (directory : String) (names package own : List String)
    (u : CompilationUnit) (d : TypeDeclaration) : Prop where
  names_eq : names = package ++ own
  own_ne : own ≠ []
  isDeclaredIn : IsDeclaredIn f directory package own u d

private theorem declaredType?_isSome_iff : (declaredType? f directory name).isSome ↔
    ∃ package own u d, Declares f directory (segments '.' name) package own u d := by
  rw [declaredType?, List.findSome?_isSome_iff]
  simp only [mem_fileLengths]
  generalize segments '.' name = names
  constructor
  · rintro ⟨n, ⟨hpos, hle⟩, hsome⟩
    obtain ⟨package, own, rfl, rfl, hown⟩ := exists_split hpos hle
    obtain ⟨t, ht⟩ := Option.isSome_iff_exists.mp hsome
    obtain ⟨u, d, -, hdeclared⟩ := declaredIn?_eq_some_iff.mp ht
    exact ⟨package, own, u, d, rfl, hown, hdeclared⟩
  · rintro ⟨package, own, u, d, rfl, hown, hdeclared⟩
    have hpos : 0 < own.length := List.length_pos_iff.mpr hown
    refine ⟨package.length + 1, by simp; omega, ?_⟩
    rw [declaredIn?_eq_some_iff.mpr ⟨u, d, rfl, hdeclared⟩]
    rfl

private theorem findType?_isSome_iff {directories : List String} :
    (findType? f (originsOf directories) name).isSome ↔
    (∃ directory ∈ directories, ∃ package own u d, Declares f directory (segments '.' name) package own u d) ∨
      (BuiltinType.ofName? name).isSome := by
  rw [findType?_originsOf, Option.isSome_or, Bool.or_eq_true, List.findSome?_isSome_iff, Option.isSome_map]
  simp only [declaredType?_isSome_iff]

private theorem qualifiedName_of_ofName? {b : BuiltinType} (h : BuiltinType.ofName? name = some b) :
    b.qualifiedName = name := by
  simpa using List.find?_some h

/-- A type that a directory declares in the place of its package has the name it was found by, and so has one
that is known. -/
theorem qualifiedName_of_findType? {directories : List String} {t : FoundType}
    (hplace : ∀ directory ∈ directories, ∀ package own u d,
      Declares f directory (segments '.' name) package own u d → packageNames u = package)
    (h : findType? f (originsOf directories) name = some t) : t.qualifiedName = name := by
  rw [findType?_originsOf, Option.or_eq_some_iff] at h
  rcases h with h | ⟨-, h⟩
  · obtain ⟨directory, hdirectory, h⟩ := List.exists_of_findSome?_eq_some h
    obtain ⟨package, own, u, d, hname, hown, rfl, hdeclared, -⟩ := declaredType?_eq_some_iff.mp h
    have hpackage := hplace directory hdirectory package own u d ⟨hname, hown, hdeclared⟩
    exact (typePath_eq_iff hname hown (path_of_typeByPath? hdeclared.declared)).mpr hpackage
  · obtain ⟨b, hb, rfl⟩ := Option.map_eq_some_iff.mp h
    exact qualifiedName_of_ofName? hb

/-- A file in the place of a package and a type has the unit that was read from it. -/
theorem loadUnit?_of_readUnit {file : String} (hu : readUnit f path = .ok u)
    (hplace : f.place? path = f.place? file) : loadUnit? f file = some u := by
  have htext : f.text? file = f.text? path := by
    simp only [Files.text?, Files.bytes?, Files.entry?, hplace]
  rw [readUnit] at hu
  split at hu
  · rename_i text hread
    rw [loadUnit?, htext, hread, Option.bind_some, toOption_ofText file path, hu]
    rfl
  · cases hu

private theorem isDeclaredIn_of_visibleType? {scope : List String} (hu : readUnit f path = .ok u)
    (hvisible : u.visibleType? scope name = some d)
    (hplace : f.place? path = f.place? (typeFile directory (packageNames u ++ d.path.take 1))) :
    IsDeclaredIn f directory (packageNames u) d.path u d where
  loaded := loadUnit?_of_readUnit hu hplace
  length := (length_packageNames u).symm
  declared := by
    obtain ⟨depth, -, hd, -⟩ := visibleType?_eq_some_iff.mp hvisible
    rwa [path_of_typeByPath? hd]

private theorem isScoped_of_visibleType? {scope : List String} (hu : readUnit f path = .ok u)
    (hprimitive : isPrimitive name = false) (himport : u.singleImport? name = none)
    (hvisible : u.visibleType? scope name = some d) (hwritten : baseName written = name) :
    IsScoped u written := by
  have hword := isWord_of_visibleType? hu hvisible
  subst hwritten
  exact ⟨hword.nonempty, hprimitive, hword.no_dot, himport⟩

private theorem baseName_of_isWord (h : IsWord name) : baseName name = name := by
  rw [baseName, h.erase_eq, h.base_eq]

private theorem getLast?_of_isWord (h : IsWord name) : name.toList.getLast? ≠ some ']' := by
  intro hlast
  exact h.not_mem (by decide +kernel) (by decide +kernel) (List.mem_of_getLast? hlast)

/-- The name of a type of the unit asks for that type by its qualified name. -/
theorem run_writtenType?_of_visibleType? {scope : List String} (find : String → Option FoundType)
    (hscoped : IsScoped u written) (hend : written.toList.getLast? ≠ some ']')
    (hvisible : u.visibleType? scope (baseName written) = some d) :
    (writtenType? u scope written).run find = find (u.typePath d) := by
  rw [run_writtenType?_of_isScoped find hscoped hend, typeCandidates_of_isScoped hscoped, hvisible,
    List.findSome?_singleton]

/-- A name that means a type of the unit itself is looked up by the qualified name of that type. The type is
found just in case it is known, or declared in its place in some directory. So it is found if the file that
names it lies in that place itself, and then no call fails for want of such a receiver's type. -/
theorem own_type_found_iff (f : Files) (root : String) (sources : List String) (uses : List Resolver.Use)
    (path : String) (u : CompilationUnit) (declaration d : TypeDeclaration) (name written : String)
    (hu : readUnit f path = .ok u) (hprimitive : isPrimitive name = false)
    (himport : u.singleImport? name = none) (hvisible : u.visibleType? declaration.path name = some d)
    (hwritten : written = name ∨ baseName written = name ∧ written.toList.getLast? ≠ some ']') :
    let directories := scope f root sources
    let resolver := (Resolver.ofOrigins (originsOf directories)).after f uses
    let found := (resolver.pursue f (writtenType? u declaration.path written)).1
    let names := packageNames u ++ d.path
    (found.isSome ↔
      (∃ directory ∈ directories, ∃ package own u' d', Declares f directory names package own u' d') ∨
        (BuiltinType.ofName? (u.typePath d)).isSome) ∧
    ((∃ directory ∈ directories,
        f.place? path = f.place? (typeFile directory (packageNames u ++ d.path.take 1))) → found.isSome) ∧
    ((∀ directory ∈ directories, ∀ package own u' d', Declares f directory names package own u' d' →
        packageNames u' = package) → ∀ t, found = some t → t.qualifiedName = u.typePath d) ∧
    ∀ (body : Method) (c : Call), Site.WritesReceiver ⟨u, declaration, body⟩ written c.receiver →
      ((resolver.pursue f (Site.resolve ⟨u, declaration, body⟩ c)).1 =
        .unresolved (.unknownReceiverType c.name) ↔ found = none) := by
  intro directories resolver found names
  have hword := isWord_of_visibleType? hu hvisible
  obtain ⟨hbase, hend⟩ : baseName written = name ∧ written.toList.getLast? ≠ some ']' := by
    rcases hwritten with rfl | hwritten
    · exact ⟨baseName_of_isWord hword, getLast?_of_isWord hword⟩
    · exact hwritten
  have hscoped := isScoped_of_visibleType? hu hprimitive himport hvisible hbase
  have hvisible' : u.visibleType? declaration.path (baseName written) = some d := by rwa [hbase]
  have hrun : found = (writtenType? u declaration.path written).run (findType? f (originsOf directories)) :=
    Resolver.pursue_after f _ uses _
  have hfound : found = findType? f (originsOf directories) (u.typePath d) :=
    hrun.trans (run_writtenType?_of_visibleType? _ hscoped hend hvisible')
  have hsegments : segments '.' (u.typePath d) = names := by
    obtain ⟨_, -, hpath⟩ := path_of_visibleType? hvisible
    exact segments_typePath hu (mem_types_of_visibleType? hvisible) (by simp [hpath])
  have hsome : found.isSome ↔
      (∃ directory ∈ directories, ∃ package own u' d', Declares f directory names package own u' d') ∨
        (BuiltinType.ofName? (u.typePath d)).isSome := by
    rw [hfound, findType?_isSome_iff, hsegments]
  refine ⟨hsome, fun ⟨directory, hdirectory, hplace⟩ => ?_, fun hplace t ht => ?_, fun body c hc => ?_⟩
  · obtain ⟨_, -, hpath⟩ := path_of_visibleType? hvisible
    exact hsome.mpr (.inl ⟨directory, hdirectory, packageNames u, d.path, u, d, rfl, by simp [hpath],
      isDeclaredIn_of_visibleType? hu hvisible hplace⟩)
  · exact qualifiedName_of_findType? (hsegments ▸ hplace) (hfound.symm.trans ht)
  · rw [Resolver.pursue_after, hrun]
    exact Site.run_resolve_eq_unknown_iff hc

/-- A call in `A` on a field of the type `B`, which the same file declares with this path. -/
def ownTypeCall (path : List String) : Site :=
  let m : Method := ⟨"m", .packageAccess, false, [], .empty⟩
  let f : Method := ⟨"f", .packageAccess, false, [], ⟨[⟨"m", .name "b", [], 1⟩], [], []⟩⟩
  let a : TypeDeclaration :=
    ⟨"A", ["A"], .classType, none, [], [⟨"b", "B", .packageAccess, false⟩], [f], [], .initializer .empty⟩
  let b : TypeDeclaration := ⟨"B", path, .classType, none, [], [], [m], [], .initializer .empty⟩
  ⟨⟨none, [], [a, b]⟩, a, f⟩

theorem scope_eq_singleton {root : String} {sources : List String}
    (h : dropSamePaths (((f.entry? root).map (visibleDirectories root)).getD [] ++
      sources.filterMap directoryOf?) = [directory]) :
    scope f root sources = [directory] := by
  rw [scope, h, List.mergeSort_singleton]

/-- A member of the outermost type is found. -/
theorem own_type_found_iff_member :
    let files := ((Files.empty ["home"]).writeText "A.java"
      "class A { B b; void f() { b.m(); } class B { void m() {} } }").1
    let s := ownTypeCall ["A", "B"]
    let c : Call := ⟨"m", .name "b", [], 1⟩
    let resolver := Resolver.ofOrigins (originsOf (scope files "." ["A.java"]))
    readUnit files "A.java" = .ok s.unit ∧
      (∃ t, (resolver.pursue files (writtenType? s.unit ["A"] "B")).1 = some t ∧ t.qualifiedName = "A.B") ∧
      (resolver.pursue files (s.resolve c)).1 ≠ .unresolved (.unknownReceiverType "m") := by
  intro files s c resolver
  have hu : readUnit files "A.java" = .ok s.unit := by decide +kernel
  have hscope : scope files "." ["A.java"] = ["."] := scope_eq_singleton (by decide +kernel)
  obtain ⟨-, hplace, hname, hcall⟩ := own_type_found_iff files "." ["A.java"] [] "A.java" s.unit
    s.declaration s.unit.types[1] "B" "B" hu (by decide) (by decide) (by decide) (.inl rfl)
  obtain ⟨t, ht⟩ := Option.isSome_iff_exists.mp
    (hplace ⟨".", hscope ▸ List.mem_singleton_self ".", by decide +kernel⟩)
  refine ⟨hu, ⟨t, ht, hname (fun directory hdirectory package own u d hdeclares => ?_) t ht⟩,
    fun hunknown => ?_⟩
  · obtain ⟨hnames, hown, hdeclared⟩ := hdeclares
    replace hnames : ["A", "B"] = package ++ own := hnames
    rw [hscope] at hdirectory
    obtain rfl := List.mem_singleton.mp hdirectory
    rcases package with _ | ⟨n, rest⟩
    · exact List.eq_nil_of_length_eq_zero ((length_packageNames u).trans hdeclared.length)
    · obtain ⟨rfl, hrest⟩ : "A" = n ∧ ["B"] = rest ++ own := by simpa using hnames
      rcases rest with _ | ⟨n', rest⟩
      · obtain rfl : ["B"] = own := hrest
        have hnone : loadUnit? files (typeFile "." ["A", "B"]) = none := by decide +kernel
        exact absurd (hnone.symm.trans hdeclared.loaded) (Option.some_ne_none u).symm
      · obtain ⟨-, hnil⟩ : "B" = n' ∧ [] = rest ++ own := by simpa using hrest
        exact absurd (List.append_eq_nil_iff.mp hnil.symm).2 hown
  · have hnone := (hcall s.body c ⟨by decide, by decide +kernel⟩).mp hunknown
    exact absurd (ht.symm.trans hnone) (Option.some_ne_none t)

/-- A further type of the file is visible, but it is looked for in a file of its own name. -/
theorem further_type_not_found :
    let files := ((Files.empty ["home"]).writeText "A.java"
      "class A { B b; void f() { b.m(); } } class B { void m() {} }").1
    let s := ownTypeCall ["B"]
    let c : Call := ⟨"m", .name "b", [], 1⟩
    let resolver := Resolver.ofOrigins (originsOf (scope files "." ["A.java"]))
    readUnit files "A.java" = .ok s.unit ∧ s.declaration ∈ s.unit.types ∧
      s.unit.singleImport? "B" = none ∧ s.unit.visibleType? s.declaration.path "B" = some s.unit.types[1] ∧
      (resolver.pursue files (writtenType? s.unit s.declaration.path "B")).1 = none ∧
      (resolver.pursue files (s.resolve c)).1 = .unresolved (.unknownReceiverType "m") := by
  intro files s c resolver
  have hscope : scope files "." ["A.java"] = ["."] := scope_eq_singleton (by decide +kernel)
  refine ⟨by decide +kernel, by decide, by decide, by decide, ?_, ?_⟩
  · rw [Resolver.pursue_ofOrigins, hscope]
    decide +kernel
  · rw [Resolver.pursue_ofOrigins, hscope]
    decide +kernel

end StructureGraph.Resolution
