import StructureGraph.Proofs.Text.Segments
import StructureGraph.Resolution.Sources

namespace StructureGraph.Resolution

open StructureGraph.Java
open StructureGraph.Text (segments)

variable {files : Files} {directory name : String} {package own : List String}
  {u : CompilationUnit} {d : TypeDeclaration} {t : FoundType}

/-- The names that the package of a unit is made of. -/
def packageNames (u : CompilationUnit) : List String :=
  match u.package with
  | some package => segments '.' package
  | none => []

theorem length_packageNames (u : CompilationUnit) : (packageNames u).length = packageLength u := by
  unfold packageNames packageLength
  cases u.package <;> rfl

theorem no_dot_of_mem_packageNames {s : String} (h : s ∈ packageNames u) : '.' ∉ s.toList := by
  unfold packageNames at h
  split at h
  · exact Text.not_mem_of_mem_segments h
  · cases h

/-- The file that a package and a name say has a unit with a package of the same length, in which the
type has this path. -/
structure IsDeclaredIn (files : Files) (directory : String) (package own : List String)
    (u : CompilationUnit) (d : TypeDeclaration) : Prop where
  loaded : loadUnit? files (typeFile directory (package ++ own.take 1)) = some u
  length : packageLength u = package.length
  declared : u.typeByPath? own = some d

theorem declaredIn?_eq_some_iff :
    declaredIn? files directory (package ++ own) (package.length + 1) = some t ↔
      ∃ u d, t = .declared u d ∧ IsDeclaredIn files directory package own u d := by
  have hfile : (package ++ own).take (package.length + 1) = package ++ own.take 1 :=
    List.take_length_add_append 1
  have htype (u : CompilationUnit) : typeOf? (package ++ own) (package.length + 1) u = some t ↔
      packageLength u = package.length ∧ ∃ d, u.typeByPath? own = some d ∧ .declared u d = t := by
    simp [typeOf?]
  simp only [declaredIn?, hfile, Option.bind_eq_some_iff, htype]
  constructor
  · intro hexists
    obtain ⟨u, hload, hlength, d, hd, rfl⟩ := hexists
    exact ⟨u, d, rfl, hload, hlength, hd⟩
  · intro hexists
    obtain ⟨u, d, rfl, hload, hlength, hd⟩ := hexists
    exact ⟨u, hload, hlength, d, hd, rfl⟩

/-- A number of names that say a file cuts them into those of a package and those of a type. -/
theorem exists_split {names : List String} {n : Nat} (hpos : 1 ≤ n) (hle : n ≤ names.length) :
    ∃ package own, names = package ++ own ∧ n = package.length + 1 ∧ own ≠ [] := by
  refine ⟨names.take (n - 1), names.drop (n - 1), (List.take_append_drop _ _).symm, ?_, ?_⟩
  · rw [List.length_take]
    omega
  · rw [ne_eq, List.drop_eq_nil_iff]
    omega

theorem mem_fileLengths {names : List String} {n : Nat} :
    n ∈ fileLengths names ↔ 1 ≤ n ∧ n ≤ names.length := by
  simp only [fileLengths, List.mem_reverse, List.mem_range'_1]
  omega

private theorem fileLengths_descending (names : List String) : (fileLengths names).Pairwise (· > ·) :=
  List.pairwise_reverse.mpr List.pairwise_lt_range'

/-- Of descending numbers the greatest with an answer counts. -/
theorem findSome?_eq_some_iff_of_descending {ns : List Nat} (h : ns.Pairwise (· > ·)) {β : Type} {b : β}
    {p : Nat → Option β} :
    ns.findSome? p = some b ↔ ∃ n ∈ ns, p n = some b ∧ ∀ m ∈ ns, n < m → p m = none := by
  rw [List.findSome?_eq_some_iff]
  constructor
  · intro hexists
    obtain ⟨before, n, after, rfl, hn, hbefore⟩ := hexists
    refine ⟨n, by simp, hn, fun m hm hlt => ?_⟩
    have hafter := (List.pairwise_cons.mp (List.pairwise_append.mp h).2.1).1
    rcases List.mem_append.mp hm with hm | hm
    · exact hbefore m hm
    · rcases List.mem_cons.mp hm with rfl | hm
      · exact (lt_irrefl _ hlt).elim
      · exact (lt_asymm hlt (hafter m hm)).elim
  · intro hexists
    obtain ⟨n, hn, hanswer, hgreater⟩ := hexists
    obtain ⟨before, after, rfl⟩ := List.append_of_mem hn
    refine ⟨before, n, after, rfl, hanswer, fun m hm => hgreater m (by simp [hm]) ?_⟩
    exact (List.pairwise_append.mp h).2.2 m hm n List.mem_cons_self

/-- A type is found just in case some file declares it so; the file with the longest package counts. -/
theorem declaredType?_eq_some_iff : declaredType? files directory name = some t ↔
    ∃ package own u d, segments '.' name = package ++ own ∧ own ≠ [] ∧ t = .declared u d ∧
      IsDeclaredIn files directory package own u d ∧
      ∀ package' own', segments '.' name = package' ++ own' → own' ≠ [] →
        package.length < package'.length →
        ∀ u' d', ¬IsDeclaredIn files directory package' own' u' d' := by
  rw [declaredType?, findSome?_eq_some_iff_of_descending (fileLengths_descending _)]
  simp only [mem_fileLengths]
  generalize segments '.' name = names
  constructor
  · intro hexists
    obtain ⟨n, ⟨hpos, hle⟩, hanswer, hgreater⟩ := hexists
    obtain ⟨package, own, rfl, rfl, hown⟩ := exists_split hpos hle
    obtain ⟨u, d, rfl, hdeclared⟩ := declaredIn?_eq_some_iff.mp hanswer
    refine ⟨package, own, u, d, rfl, hown, rfl, hdeclared,
      fun package' own' hnames hown' hlt u' d' hdeclared' => ?_⟩
    have hpos' : 0 < own'.length := List.length_pos_iff.mpr hown'
    have hnone := hgreater (package'.length + 1) (by simp [hnames]; omega) (by omega)
    rw [hnames, declaredIn?_eq_some_iff.mpr ⟨u', d', rfl, hdeclared'⟩] at hnone
    cases hnone
  · intro hexists
    obtain ⟨package, own, u, d, rfl, hown, rfl, hdeclared, hlongest⟩ := hexists
    have hpos : 0 < own.length := List.length_pos_iff.mpr hown
    refine ⟨package.length + 1, by simp; omega, declaredIn?_eq_some_iff.mpr ⟨u, d, rfl, hdeclared⟩,
      fun m hm hlt => Option.eq_none_iff_forall_ne_some.mpr fun t' hanswer => ?_⟩
    obtain ⟨package', own', hnames, rfl, hown'⟩ := exists_split hm.1 hm.2
    rw [hnames] at hanswer
    obtain ⟨u', d', -, hdeclared'⟩ := declaredIn?_eq_some_iff.mp hanswer
    exact hlongest package' own' hnames hown' (by omega) u' d' hdeclared'

theorem path_of_typeByPath? (h : u.typeByPath? own = some d) : d.path = own := by
  simpa using List.find?_some h

theorem inPackage_intercalate {names : List String} (h : names ≠ []) :
    u.inPackage (String.intercalate "." names) = String.intercalate "." (packageNames u ++ names) := by
  rw [CompilationUnit.inPackage, packageNames]
  cases u.package with
  | none => rfl
  | some package =>
    have hpackage : String.intercalate "." (segments '.' package) = package :=
      Text.intercalate_segments package
    simp only [String.intercalate_append_of_ne_nil (Text.segments_ne_nil package) h, hpackage]

theorem typePath_eq_intercalate (h : d.path ≠ []) :
    u.typePath d = String.intercalate "." (packageNames u ++ d.path) :=
  inPackage_intercalate h

/-- A type has the name it was found by just in case the package has the names that say where its
file lies. -/
theorem typePath_eq_iff (hname : segments '.' name = package ++ own) (hown : own ≠ [])
    (hpath : d.path = own) : u.typePath d = name ↔ packageNames u = package := by
  have hjoined : name = String.intercalate "." (package ++ own) := by
    rw [← hname]
    exact (Text.intercalate_segments name).symm
  rw [typePath_eq_intercalate (hpath ▸ hown), hpath]
  constructor
  · intro heq
    have hdot : ∀ s ∈ packageNames u ++ own, '.' ∉ s.toList := by
      intro s hs
      rcases List.mem_append.mp hs with hs | hs
      · exact no_dot_of_mem_packageNames hs
      · exact Text.not_mem_of_mem_segments (hname ▸ List.mem_append_right package hs)
    have hsegments : segments '.' name = packageNames u ++ own := by
      rw [← heq]
      exact Text.segments_intercalate (by simp [hown]) hdot
    exact List.append_cancel_right (hsegments.symm.trans hname)
  · intro heq
    rw [heq, hjoined]

/-- A type is found just in case some file declares it, where the longest package counts that says so.
It is a type of the unit in that file, and its path in the unit ends the name asked for. The package of
the unit is only as long as the rest of the name: the type has the name asked for just in case the
package is that rest. -/
theorem found_type_named_iff : declaredType? files directory name = some t ↔
    ∃ package own u d, segments '.' name = package ++ own ∧ own ≠ [] ∧ t = .declared u d ∧
      IsDeclaredIn files directory package own u d ∧
      (∀ package' own', segments '.' name = package' ++ own' → own' ≠ [] →
        package.length < package'.length →
        ∀ u' d', ¬IsDeclaredIn files directory package' own' u' d') ∧
      d ∈ u.types ∧ d.path = own ∧ (packageNames u).length = package.length ∧
      (u.typePath d = name ↔ packageNames u = package) := by
  rw [declaredType?_eq_some_iff]
  constructor
  · intro hexists
    obtain ⟨package, own, u, d, hname, hown, ht, hdeclared, hlongest⟩ := hexists
    have hpath := path_of_typeByPath? hdeclared.declared
    have hlength := (length_packageNames u).trans hdeclared.length
    exact ⟨package, own, u, d, hname, hown, ht, hdeclared, hlongest,
      List.mem_of_find?_eq_some hdeclared.declared, hpath, hlength,
      typePath_eq_iff hname hown hpath⟩
  · intro hexists
    obtain ⟨package, own, u, d, hname, hown, ht, hdeclared, hlongest, -⟩ := hexists
    exact ⟨package, own, u, d, hname, hown, ht, hdeclared, hlongest⟩

/-- A member type that is found under the name it has. -/
theorem found_type_named_member :
    let files := (((Files.empty ["home"]).createDirectories "a").1.writeText "a/B.java"
      "package a; class B { class C {} }").1
    let b : TypeDeclaration := ⟨"B", ["B"], .classType, none, [], [], [], [], .initializer .empty⟩
    let c : TypeDeclaration := ⟨"C", ["B", "C"], .classType, none, [], [], [], [], .initializer .empty⟩
    let u : CompilationUnit := ⟨some "a", [], [b, c]⟩
    declaredType? files "." "a.B.C" = some (.declared u c) ∧ u.typePath c = "a.B.C" := by
  intro files b c u
  have hfound : declaredType? files "." "a.B.C" = some (.declared u c) := by decide +kernel
  refine ⟨hfound, ?_⟩
  obtain ⟨package, own, u', d', hname, -, ht, -, -, -, hpath, -, hiff⟩ :=
    found_type_named_iff.mp hfound
  obtain ⟨rfl, rfl⟩ : u = u' ∧ c = d' := by simpa using ht
  have hpackage : package = ["a"] := by
    rw [← hpath] at hname
    exact List.append_cancel_right (hname.symm.trans (by decide : _ = ["a"] ++ c.path))
  exact hiff.mpr (hpackage ▸ by decide)

/-- A type that is found in the place of another package than its own, as that is of the same length. -/
theorem found_type_in_other_package :
    let files := (((Files.empty ["home"]).createDirectories "a").1.writeText "a/B.java"
      "package x; class B {}").1
    let b : TypeDeclaration := ⟨"B", ["B"], .classType, none, [], [], [], [], .initializer .empty⟩
    let u : CompilationUnit := ⟨some "x", [], [b]⟩
    declaredType? files "." "a.B" = some (.declared u b) ∧ u.typePath b = "x.B" ∧ "x.B" ≠ "a.B" := by
  intro files b u
  exact ⟨by decide +kernel, by decide, by decide⟩

end StructureGraph.Resolution
