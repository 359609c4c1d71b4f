import StructureGraph.Java.Source
import StructureGraph.Proofs.Java.Members
import StructureGraph.Resolution.Call

namespace StructureGraph.Java

open Syntax

namespace Extraction

/-- A type declaration declares itself and, inside the types around it and itself, what its members declare:
the type at the place, with its path. -/
inductive Declares : List String → Tree → List Nat → List String → Tree → Prop
  | here {outer : List String} {t name : Tree} : t.childAs .name = some name →
    Declares outer t [] (outer ++ [name.text]) t
  | member {outer path : List String} {t name m s : Tree} {q p : List Nat} : t.childAs .name = some name →
    HasMember t q m → m.kind.isTypeDeclaration → Declares (outer ++ [name.text]) m p path s →
    Declares outer t (q ++ p) path s

/-- A file declares what the type declarations among its children declare. -/
def FileDeclares (file : Tree) (p : List Nat) (path : List String) (s : Tree) : Prop :=
  ∃ i r t q, p = i :: q ∧ file.children[i]? = some (r, t) ∧ t.kind.isTypeDeclaration ∧ Declares [] t q path s

/-- Some type is declared at the place. -/
def IsDeclaredAt (outer : List String) (t : Tree) (p : List Nat) : Prop := ∃ path s, Declares outer t p path s

/-- The declaration is that of the type at the place. -/
def IsDeclarationAt (outer : List String) (t : Tree) (p : List Nat) (d : TypeDeclaration) : Prop :=
  ∃ outer' name s, Declares outer t p (outer' ++ [name]) s ∧ d = typeDeclaration outer' name s

variable {t : Tree} {outer : List String}

private theorem declares_iff {name : Tree} (hname : t.childAs .name = some name) {p : List Nat}
    {path : List String}
    {s : Tree} : Declares outer t p path s ↔ (p = [] ∧ path = outer ++ [name.text] ∧ s = t) ∨
      ∃ q m p', p = q ++ p' ∧ HasMember t q m ∧ m.kind.isTypeDeclaration ∧
        Declares (outer ++ [name.text]) m p' path s := by
  constructor
  · intro h
    cases h with
    | here hname' =>
      obtain rfl := Option.some.inj (hname.symm.trans hname')
      exact .inl ⟨rfl, rfl, rfl⟩
    | member hname' hmember hkind hdeclares =>
      obtain rfl := Option.some.inj (hname.symm.trans hname')
      exact .inr ⟨_, _, _, rfl, hmember, hkind, hdeclares⟩
  · rintro (⟨rfl, rfl, rfl⟩ | ⟨q, m, p', rfl, hmember, hkind, hdeclares⟩)
    · exact .here hname
    · exact .member hname hmember hkind hdeclares

private theorem isDeclaredAt_iff {name : Tree} (hname : t.childAs .name = some name) {p : List Nat} :
    IsDeclaredAt outer t p ↔
      p = [] ∨ ∃ x ∈ innerTypes t, ∃ q, p = x.1 ++ q ∧ IsDeclaredAt (outer ++ [name.text]) x.2 q := by
  simp only [Prod.exists, mem_innerTypes]
  constructor
  · rintro ⟨path, s, hdeclares⟩
    rcases (declares_iff hname).mp hdeclares with ⟨rfl, -⟩ | ⟨q, m, p', rfl, hmember, hkind, hdeclares⟩
    · exact .inl rfl
    · exact .inr ⟨q, m, ⟨hmember, hkind⟩, p', rfl, path, s, hdeclares⟩
  · rintro (rfl | ⟨q, m, ⟨hmember, hkind⟩, p', rfl, path, s, hdeclares⟩)
    · exact ⟨_, _, .here hname⟩
    · exact ⟨path, s, .member hname hmember hkind hdeclares⟩

theorem isDeclarationAt_append {name : Tree} (hname : t.childAs .name = some name) {x : PlacedTree}
    (hx : x ∈ innerTypes t) {q : List Nat} {d : TypeDeclaration}
    (h : IsDeclarationAt (outer ++ [name.text]) x.2 q d) : IsDeclarationAt outer t (x.1 ++ q) d := by
  obtain ⟨outer', name', s, hdeclares, rfl⟩ := h
  obtain ⟨hmember, hkind⟩ := mem_innerTypes.mp hx
  exact ⟨outer', name', s, .member hname hmember hkind hdeclares, rfl⟩

/-- The types of a declaration are those it declares, in pre-order. -/
theorem isListing_types (ht : t.IsFormed) (hkind : t.kind.isTypeDeclaration) (outer : List String) :
    IsListing (IsDeclaredAt outer t) (IsDeclarationAt outer t) (types outer t) := by
  refine forall_of_innerTypes
    (motive := fun t => ∀ outer, IsListing (IsDeclaredAt outer t) (IsDeclarationAt outer t) (types outer t))
    (fun t ht hkind ih outer => ?_) ht hkind outer
  obtain ⟨name, hname, htypes⟩ := types_eq ht hkind outer
  have hinner := IsListing.below (sideBySide_innerTypes t) fun x hx => ih x hx (outer ++ [name.text])
  have hbelow := hinner.imp (fun _ => Iff.rfl) fun p d ⟨x, hx, q, hp, hd⟩ =>
    (hp ▸ isDeclarationAt_append hname hx hd : IsDeclarationAt outer t p d)
  rw [htypes]
  refine (hbelow.root ?_ ⟨outer, name.text, t, .here hname, rfl⟩).imp (fun p => ?_) fun _ _ => id
  · rintro ⟨x, hx, q, hnil, -⟩
    obtain ⟨⟨i, q', b, hplace, -⟩, -⟩ := mem_innerTypes.mp hx
    rw [hplace] at hnil
    cases hnil
  · exact (isDeclaredAt_iff hname).symm

/-- A declaration lies inside the given types, and the types it lies in besides are among earlier ones. -/
structure IsEnclosed (outer : List String) (earlier : List TypeDeclaration) (d : TypeDeclaration) : Prop where
  inside : outer <+: d.path
  deeper : outer.length < d.path.length
  enclosing : ∀ depth, outer.length < depth → depth < d.path.length →
    ∃ e ∈ earlier, e.path = d.path.take depth

/-- All declarations lie inside the given types, and the types they lie in besides come before them. -/
def IsClosed (outer : List String) (ds : List TypeDeclaration) : Prop :=
  ∀ before d after, ds = before ++ d :: after → IsEnclosed outer before d

theorem IsEnclosed.mono {earlier earlier' : List TypeDeclaration} {d : TypeDeclaration}
    (h : IsEnclosed outer earlier d) (hsubset : earlier ⊆ earlier') : IsEnclosed outer earlier' d where
  inside := h.inside
  deeper := h.deeper
  enclosing := fun depth hlow hhigh =>
    let ⟨e, he, hpath⟩ := h.enclosing depth hlow hhigh
    ⟨e, hsubset he, hpath⟩

theorem isClosed_nil (outer : List String) : IsClosed outer [] := by
  intro before d after h
  cases before <;> cases h

theorem IsClosed.append {ds ds' : List TypeDeclaration} (hds : IsClosed outer ds)
    (hds' : IsClosed outer ds') : IsClosed outer (ds ++ ds') := by
  intro before d after h
  rcases List.append_eq_append_iff.mp h with ⟨between, rfl, hrest⟩ | ⟨between, hfirst, hrest⟩
  · exact (hds' between d after hrest).mono (List.subset_append_right ds between)
  · cases between with
    | nil => exact (hds' [] d after hrest.symm).mono (List.nil_subset before)
    | cons e between =>
      obtain ⟨rfl, rfl⟩ := List.cons.inj hrest
      exact hds before d between hfirst

private theorem isClosed_flatMap {α : Type} {xs : List α} {f : α → List TypeDeclaration}
    (h : ∀ x ∈ xs, IsClosed outer (f x)) : IsClosed outer (xs.flatMap f) := by
  induction xs with
  | nil => exact isClosed_nil outer
  | cons x xs ih =>
    obtain ⟨hx, hxs⟩ := List.forall_mem_cons.mp h
    exact hx.append (ih hxs)

/-- A declaration comes before those inside it. -/
theorem IsClosed.cons {ds : List TypeDeclaration} {d : TypeDeclaration} {name : String}
    (hd : d.path = outer ++ [name]) (hds : IsClosed (outer ++ [name]) ds) : IsClosed outer (d :: ds) := by
  have hlength : (outer ++ [name]).length = outer.length + 1 := List.length_append
  intro before e after h
  cases before with
  | nil =>
    obtain ⟨rfl, -⟩ := List.cons.inj h
    refine ⟨hd ▸ List.prefix_append outer [name], by rw [hd, hlength]; exact Nat.lt_succ_self _, ?_⟩
    intro depth hlow hhigh
    rw [hd, hlength] at hhigh
    omega
  | cons d' before =>
    obtain ⟨rfl, hrest⟩ := List.cons.inj h
    have he := hds before e after hrest
    have hdeeper := he.deeper
    rw [hlength] at hdeeper
    refine ⟨(List.prefix_append outer [name]).trans he.inside, Nat.lt_of_succ_lt hdeeper, ?_⟩
    intro depth hlow hhigh
    by_cases hown : depth = outer.length + 1
    · refine ⟨d, List.mem_cons_self, ?_⟩
      rw [hd, List.prefix_iff_eq_take.mp he.inside, hown, hlength]
    · obtain ⟨e', he', hpath⟩ := he.enclosing depth (by omega) hhigh
      exact ⟨e', List.mem_cons_of_mem d he', hpath⟩

private theorem isClosed_types (ht : t.IsFormed) (hkind : t.kind.isTypeDeclaration) (outer : List String) :
    IsClosed outer (types outer t) := by
  refine forall_of_innerTypes (motive := fun t => ∀ outer, IsClosed outer (types outer t))
    (fun t ht hkind ih outer => ?_) ht hkind outer
  obtain ⟨name, -, htypes⟩ := types_eq ht hkind outer
  rw [htypes]
  exact IsClosed.cons rfl (isClosed_flatMap fun x hx => ih x hx _)

private theorem types_compilationUnit (file : Tree) : (compilationUnit file).types =
    (file.placedChildren.filter (·.2.kind.isTypeDeclaration)).flatMap fun x => types [] x.2 := by
  have hnamed : file.named.filter (·.kind.isTypeDeclaration) =
      (file.placedChildren.filter (·.2.kind.isTypeDeclaration)).map Prod.snd := by
    have hmap := List.filter_map (p := fun t : Tree => t.kind.isTypeDeclaration) (f := Prod.snd)
      (l := file.placedChildren)
    refine Eq.trans ?_ hmap
    rw [Tree.map_snd_placedChildren, Tree.named, List.filter_filter]
    refine List.filter_congr fun t _ => ?_
    rw [Tree.isNamed]
    cases t.kind <;> rfl
  rw [compilationUnit, hnamed, List.flatMap_map]

private theorem isFormed_of_mem_placedChildren {file : Tree} (h : file.IsFormed) {x : PlacedTree}
    (hx : x ∈ file.placedChildren) : x.2.IsFormed :=
  h.at? (Tree.at?_of_mem_placedChildren x hx)

private theorem isListing_compilationUnit {file : Tree} (h : file.IsFormed) :
    IsListing (fun p => ∃ path s, FileDeclares file p path s)
      (fun p d => ∃ outer name s, FileDeclares file p (outer ++ [name]) s ∧ d = typeDeclaration outer name s)
      (compilationUnit file).types := by
  have hlisting := IsListing.below ((Tree.sideBySide_placedChildren file).filter (·.2.kind.isTypeDeclaration))
    fun x hx =>
      let ⟨hchild, hkind⟩ := List.mem_filter.mp hx
      isListing_types (isFormed_of_mem_placedChildren h hchild) hkind []
  rw [types_compilationUnit]
  refine hlisting.imp (fun p => ⟨?_, ?_⟩) ?_
  · rintro ⟨⟨q, t⟩, hx, q', rfl, path, s, hdeclares⟩
    obtain ⟨hx, hkind⟩ := List.mem_filter.mp hx
    obtain ⟨i, r, rfl, hchild⟩ := Tree.mem_placedChildren.mp hx
    exact ⟨path, s, i, r, t, q', rfl, hchild, hkind, hdeclares⟩
  · rintro ⟨path, s, i, r, t, q, rfl, hchild, hkind, hdeclares⟩
    have hx := Tree.mem_placedChildren.mpr ⟨i, r, rfl, hchild⟩
    exact ⟨([i], t), List.mem_filter.mpr ⟨hx, hkind⟩, q, rfl, path, s, hdeclares⟩
  · rintro p d ⟨⟨q, t⟩, hx, q', rfl, outer, name, s, hdeclares, rfl⟩
    obtain ⟨hx, hkind⟩ := List.mem_filter.mp hx
    obtain ⟨i, r, rfl, hchild⟩ := Tree.mem_placedChildren.mp hx
    exact ⟨outer, name, s, ⟨i, r, t, q', rfl, hchild, hkind, hdeclares⟩, rfl⟩

private theorem isClosed_compilationUnit {file : Tree} (h : file.IsFormed) :
    IsClosed [] (compilationUnit file).types := by
  rw [types_compilationUnit]
  refine isClosed_flatMap fun x hx => ?_
  obtain ⟨hx, hkind⟩ := List.mem_filter.mp hx
  exact isClosed_types (isFormed_of_mem_placedChildren h hx) hkind []

end Extraction

namespace CompilationUnit

variable {u : CompilationUnit} {d : TypeDeclaration}

/-- Each enclosing type of a declaration, and the type itself, is found by its path. -/
def FindsEnclosing (u : CompilationUnit) (d : TypeDeclaration) : Prop :=
  ∀ depth, 0 < depth → depth ≤ d.path.length →
    ∃ e, u.typeByPath? (d.path.take depth) = some e ∧ e.path = d.path.take depth

private theorem exists_typeByPath? {path : List String} {e : TypeDeclaration} (he : e ∈ u.types)
    (hpath : e.path = path) : ∃ e', u.typeByPath? path = some e' ∧ e'.path = path := by
  have hsome : (u.typeByPath? path).isSome := by
    rw [typeByPath?, List.find?_isSome]
    exact ⟨e, he, beq_iff_eq.mpr hpath⟩
  obtain ⟨e', he'⟩ := Option.isSome_iff_exists.mp hsome
  exact ⟨e', he', by simpa using List.find?_some he'⟩

private theorem findsEnclosing (h : Extraction.IsClosed [] u.types) (hd : d ∈ u.types) :
    u.FindsEnclosing d := by
  obtain ⟨before, after, htypes⟩ := List.append_of_mem hd
  intro depth hlow hhigh
  rcases Nat.lt_or_eq_of_le hhigh with hhigh | rfl
  · obtain ⟨e, he, hpath⟩ := (h before d after htypes).enclosing depth hlow hhigh
    exact exists_typeByPath? (htypes ▸ List.mem_append_left _ he) hpath
  · exact exists_typeByPath? hd List.take_length.symm

/-- No level is left out of the enclosing types that a call without receiver is searched in. -/
theorem FindsEnclosing.map_path_enclosing (h : u.FindsEnclosing d) (b : Method) :
    (Resolution.Site.mk u d b).enclosing.map TypeDeclaration.path =
      (List.range d.path.length).reverse.map fun i => d.path.take (i + 1) := by
  rw [Resolution.Site.enclosing, List.map_filterMap, ← List.filterMap_eq_map]
  refine List.filterMap_congr fun i hi => ?_
  obtain ⟨e, he, hpath⟩ := h (i + 1) i.succ_pos (List.mem_range.mp (List.mem_reverse.mp hi))
  rw [he, Option.map_some, hpath]
  rfl

end CompilationUnit

/-- The types of a unit are listed in pre-order of their declarations, each with the path of the type around
it and its own name. So a type around another comes before it, is found by its path, and is searched for calls
with the others. -/
theorem types_closed_under_enclosing {origin text : String} {u : CompilationUnit}
    (hu : CompilationUnit.ofText origin text = .ok u) :
    (∃ file, parse? text = some file ∧ IsListing (fun p => ∃ path s, Extraction.FileDeclares file p path s)
      (fun p d => ∃ outer name s, Extraction.FileDeclares file p (outer ++ [name]) s ∧
        d = Extraction.typeDeclaration outer name s) u.types) ∧
    (∀ before d after, u.types = before ++ d :: after → ∀ depth, 0 < depth → depth < d.path.length →
      ∃ e ∈ before, e.path = d.path.take depth) ∧
    ∀ d ∈ u.types, u.FindsEnclosing d ∧ ∀ b, (Resolution.Site.mk u d b).enclosing.map TypeDeclaration.path =
      (List.range d.path.length).reverse.map fun i => d.path.take (i + 1) := by
  rw [CompilationUnit.ofText] at hu
  split at hu
  · rename_i file hfile
    obtain rfl := Except.ok.inj hu
    have hformed := isFormed_of_parse? hfile
    have hclosed := Extraction.isClosed_compilationUnit hformed
    have hlisting := Extraction.isListing_compilationUnit hformed
    refine ⟨⟨file, hfile, hlisting⟩, fun before d after htypes => ?_, fun d hd => ?_⟩
    · exact (hclosed before d after htypes).enclosing
    · have hfinds := CompilationUnit.findsEnclosing hclosed hd
      exact ⟨hfinds, hfinds.map_path_enclosing⟩
  · cases hu

/-- An enum in a class, and behind its constants a class that repeats the name of the outer one. -/
theorem types_closed_under_enclosing_repeated :
    ∃ u, CompilationUnit.ofText "A.java" "class A { enum B { X; class A { } } } class A { }" = .ok u ∧
      u.types.map TypeDeclaration.path = [["A"], ["A", "B"], ["A", "B", "A"], ["A"]] ∧
      ∀ d ∈ u.types, u.FindsEnclosing d := by
  have hread : (CompilationUnit.ofText "A.java"
      "class A { enum B { X; class A { } } } class A { }").toOption.map (·.types.map TypeDeclaration.path) =
        some [["A"], ["A", "B"], ["A", "B", "A"], ["A"]] := by
    decide +kernel
  cases hu : CompilationUnit.ofText "A.java" "class A { enum B { X; class A { } } } class A { }" with
  | error e =>
    rw [hu] at hread
    cases hread
  | ok u =>
    rw [hu] at hread
    exact ⟨u, rfl, Option.some.inj hread, fun d hd => ((types_closed_under_enclosing hu).2.2 d hd).1⟩

end StructureGraph.Java
