import StructureGraph.Proofs.Java.TypeText
import StructureGraph.Proofs.Resolution.Candidates
import StructureGraph.Resolution.Significance

namespace StructureGraph.Resolution

open StructureGraph.Java
open StructureGraph.Text (segments cutFirst? beforeLast?)

/-- No comma and no parenthesis is in the text. -/
def IsBare (s : String) : Prop := ∀ c ∈ s.toList, c ≠ ',' ∧ c ≠ '(' ∧ c ≠ ')'

/-- A text that stands in a signature as a parameter. -/
structure IsPlain (s : String) : Prop where
  nonempty : s ≠ ""
  bare : IsBare s

/-- A single name, as every identifier is one. -/
structure IsName (s : String) : Prop extends IsPlain s where
  no_dot : '.' ∉ s.toList

/-- Names with points between them. -/
def IsDotted (s : String) : Prop := ∃ ns, ns ≠ [] ∧ (∀ n ∈ ns, IsName n) ∧ s = String.intercalate "." ns

variable {s t : String}

instance : Decidable (IsBare s) := List.decidableBAll _ s.toList

instance : Decidable (IsPlain s) :=
  decidable_of_iff (s ≠ "" ∧ IsBare s) ⟨fun h => ⟨h.1, h.2⟩, fun h => ⟨h.nonempty, h.bare⟩⟩

instance : Decidable (IsName s) :=
  decidable_of_iff (IsPlain s ∧ '.' ∉ s.toList) ⟨fun h => ⟨h.1, h.2⟩, fun h => ⟨h.toIsPlain, h.no_dot⟩⟩

theorem IsBare.append (hs : IsBare s) (ht : IsBare t) : IsBare (s ++ t) := by
  rw [IsBare, String.toList_append]
  exact List.forall_mem_append.mpr ⟨hs, ht⟩

private theorem isBare_dot : IsBare "." := by decide +kernel

private theorem isBare_lang : IsBare "java.lang." := by decide +kernel

private theorem isBare_intercalate {ss : List String} (h : ∀ s ∈ ss, IsBare s) :
    IsBare (String.intercalate "." ss) :=
  @Text.forall_mem_intercalate '.' _ ss (by decide) h

theorem IsPlain.append (hs : IsPlain s) (ht : IsBare t) : IsPlain (s ++ t) where
  nonempty := fun h => hs.nonempty (String.append_eq_empty_iff.mp h).1
  bare := hs.bare.append ht

private theorem isPlain_intercalate {ns : List String} (hne : ns ≠ []) (h : ∀ n ∈ ns, IsName n) :
    IsPlain (String.intercalate "." ns) where
  nonempty := by
    intro hempty
    have hsegments : segments '.' (String.intercalate "." ns) = ns :=
      Text.segments_intercalate hne fun n hn => (h n hn).no_dot
    have hnone : segments '.' "" = [""] := Text.segments_of_not_mem (by decide)
    rw [hempty, hnone] at hsegments
    exact (h "" (hsegments ▸ List.mem_singleton_self _)).nonempty rfl
  bare := isBare_intercalate fun n hn => (h n hn).bare

private theorem IsDotted.isPlain (h : IsDotted s) : IsPlain s := by
  obtain ⟨ns, hne, hns, rfl⟩ := h
  exact isPlain_intercalate hne hns

/-- The package, the imports and the types of a unit are named by names. -/
structure IsNamed (u : CompilationUnit) : Prop where
  package : ∀ package ∈ u.package, IsDotted package
  imports : ∀ i ∈ u.imports, IsDotted i.path
  types : ∀ d ∈ u.types, ∀ n ∈ d.path, IsName n

/-- A declaration and a method are named by names, and the types of the parameters are plain texts. -/
structure IsSpelled (d : TypeDeclaration) (m : Method) : Prop where
  path : ∀ n ∈ d.path, IsName n
  name : IsName m.name
  parameters : ∀ p ∈ m.parameters, IsPlain (TypeText.erase p.typeName)

variable {u u' : CompilationUnit} {d d' : TypeDeclaration} {m m' : Method}

private theorem IsNamed.isMadeOf (hu : IsNamed u) : IsMadeOf (fun c => c ≠ ',' ∧ c ≠ '(' ∧ c ≠ ')') u where
  package package hpackage := (hu.package package hpackage).isPlain.bare
  imports i hi := (hu.imports i hi).isPlain.bare
  types d hd n hn := (hu.types d hd n hn).bare

private theorem isBare_inPackage (hu : IsNamed u) (hs : IsBare s) : IsBare (u.inPackage s) :=
  forall_mem_inPackage hu.isMadeOf (by decide) hs

private theorem isPlain_inPackage (hu : IsNamed u) (hs : IsPlain s) : IsPlain (u.inPackage s) where
  nonempty := by
    rw [CompilationUnit.inPackage]
    split
    · exact fun h => hs.nonempty (String.append_eq_empty_iff.mp h).2
    · exact hs.nonempty
  bare := isBare_inPackage hu hs.bare

private theorem isBare_typePath (hu : IsNamed u) (hd : ∀ n ∈ d.path, IsName n) : IsBare (u.typePath d) :=
  forall_mem_typePath hu.isMadeOf (by decide) fun n hn => (hd n hn).bare

/-- The likeliest meaning of a type name. -/
theorem isPlain_head_typeCandidates (hu : IsNamed u) (scope : List String) {written : String}
    (h : IsPlain (TypeText.base (TypeText.erase written))) :
    IsPlain ((u.typeCandidates scope written).headD "") := by
  simp only [CompilationUnit.typeCandidates]
  split
  · exact h
  · split
    · rename_i i himport
      exact (hu.imports i (List.mem_of_find?_eq_some himport)).isPlain
    · split
      · rename_i e hvisible
        obtain ⟨depth, -, hfound, -⟩ := visibleType?_eq_some_iff.mp hvisible
        have hnames := hu.types e (List.mem_of_find?_eq_some hfound)
        have hne : e.path ≠ [] := by simp [path_of_typeByPath? hfound]
        exact isPlain_inPackage hu (isPlain_intercalate hne hnames)
      · split
        · exact IsPlain.append ⟨by decide, isBare_lang⟩ h.bare
        · exact isPlain_inPackage hu h

private theorem isPlain_qualifyType (hu : IsNamed u) (scope : List String) {written : String}
    (h : IsPlain (TypeText.erase written)) : IsPlain (u.qualifyType scope written) := by
  have hparts := TypeText.base_append_suffix (TypeText.erase written)
  have hbare : IsBare (TypeText.base (TypeText.erase written) ++ TypeText.suffix (TypeText.erase written)) :=
    hparts.symm ▸ h.bare
  rw [IsBare, String.toList_append] at hbare
  obtain ⟨hbase, hsuffix⟩ := List.forall_mem_append.mp hbare
  rw [CompilationUnit.qualifyType]
  by_cases hempty : TypeText.base (TypeText.erase written) = ""
  · have hhead : (u.typeCandidates scope written).headD "" = TypeText.base (TypeText.erase written) := by
      rw [CompilationUnit.typeCandidates, if_pos (.inl hempty), List.headD_cons]
    rwa [hhead, hparts]
  · exact (isPlain_head_typeCandidates hu scope ⟨hempty, hbase⟩).append hsuffix

private theorem isPlain_qualifiedParameter (hu : IsNamed u) (scope : List String) {p : Parameter}
    (h : IsPlain (TypeText.erase p.typeName)) : IsPlain (u.qualifiedParameter scope p) := by
  have htype := isPlain_qualifyType hu scope h
  rw [CompilationUnit.qualifiedParameter]
  split
  · exact htype.append ((isBare_dot.append isBare_dot).append isBare_dot)
  · exact htype

/-- A blank behind a comma belongs to the next part. -/
theorem intercalate_comma (p : String) (ps : List String) :
    String.intercalate ", " (p :: ps) = String.intercalate "," (p :: ps.map (" " ++ ·)) := by
  have hblank : ∀ (q : String) (qs : List String), String.intercalate "," ((" " ++ q) :: qs) =
      " " ++ String.intercalate "," (q :: qs) := by
    intro q qs
    cases qs with
    | nil => rfl
    | cons q' qs => simp only [String.intercalate_cons_cons, String.append_assoc]
  induction ps generalizing p with
  | nil => rfl
  | cons q ps ih =>
    have hcomma : ", " = "," ++ " " := by decide
    rw [List.map_cons, String.intercalate_cons_cons, String.intercalate_cons_cons, ih, hblank, hcomma]
    simp only [String.append_assoc]

private theorem segments_parameters {p : String} {ps : List String} (h : ∀ q ∈ p :: ps, IsPlain q) :
    segments ',' (String.intercalate ", " (p :: ps)) = p :: ps.map (" " ++ ·) := by
  rw [intercalate_comma]
  refine Text.segments_intercalate (List.cons_ne_nil _ _) (List.forall_mem_cons.mpr ⟨fun hmem => ?_, ?_⟩)
  · exact ((h p List.mem_cons_self).bare ',' hmem).1 rfl
  · refine List.forall_mem_map.mpr fun q hq hmem => ?_
    rw [String.toList_append] at hmem
    rcases List.mem_append.mp hmem with hmem | hmem
    · exact absurd hmem (by decide)
    · exact ((h q (List.mem_cons_of_mem p hq)).bare ',' hmem).1 rfl

theorem segments_empty : segments ',' "" = [""] := Text.segments_of_not_mem (by decide)

private theorem eq_of_intercalate_eq {ps qs : List String} (hps : ∀ p ∈ ps, IsPlain p)
    (hqs : ∀ q ∈ qs, IsPlain q)
    (h : String.intercalate ", " ps = String.intercalate ", " qs) : ps = qs := by
  have hsegments := congrArg (segments ',') h
  cases ps with
  | nil =>
    cases qs with
    | nil => rfl
    | cons q qs =>
      rw [segments_parameters hqs, String.intercalate_nil, segments_empty] at hsegments
      exact absurd (List.cons.inj hsegments).1.symm (hqs q List.mem_cons_self).nonempty
  | cons p ps =>
    cases qs with
    | nil =>
      rw [segments_parameters hps, String.intercalate_nil, segments_empty] at hsegments
      exact absurd (List.cons.inj hsegments).1 (hps p List.mem_cons_self).nonempty
    | cons q qs =>
      rw [segments_parameters hps, segments_parameters hqs] at hsegments
      obtain ⟨rfl, hrest⟩ := List.cons.inj hsegments
      have hinjective : Function.Injective (" " ++ · : String → String) :=
        fun _ _ => (String.append_right_inj _).mp
      rw [List.map_injective_iff.mpr hinjective hrest]

/-- What stands before the first parenthesis of a signature, and behind it. -/
theorem cutFirst?_methodSignature (hu : IsNamed u) (hm : IsSpelled d m) :
    cutFirst? '(' (u.methodSignature d m) = some (u.typePath d ++ "." ++ m.name,
      String.intercalate ", " (m.parameters.map (u.qualifiedParameter d.path)) ++ ")") := by
  have hbare : IsBare (u.typePath d ++ "." ++ m.name) :=
    ((isBare_typePath hu hm.path).append isBare_dot).append hm.name.bare
  rw [CompilationUnit.methodSignature, String.append_assoc]
  exact Text.cutFirst?_append fun hmem => (hbare '(' hmem).2.1 rfl

private theorem declaringClass_methodSignature (hu : IsNamed u) (hm : IsSpelled d m) :
    declaringClass (u.methodSignature d m) = u.typePath d := by
  have hname : beforeLast? '.' (u.typePath d ++ "." ++ m.name) = some (u.typePath d) :=
    Text.beforeLast?_append hm.name.no_dot
  rw [declaringClass, cutFirst?_methodSignature hu hm]
  simp only [hname, Option.getD_some]

/-- Signatures can be read back: the class of a method is cut off its signature, and methods of one signature
are of types with one qualified name, and have one name and one list of qualified parameters. -/
theorem signature_read_back (hu : IsNamed u) (hm : IsSpelled d m) (hu' : IsNamed u')
    (hm' : IsSpelled d' m') :
    declaringClass (u.methodSignature d m) = u.typePath d ∧
    (u.methodSignature d m = u'.methodSignature d' m' ↔ u.typePath d = u'.typePath d' ∧ m.name = m'.name ∧
      m.parameters.map (u.qualifiedParameter d.path) =
        m'.parameters.map (u'.qualifiedParameter d'.path)) := by
  have hplain : ∀ {u : CompilationUnit} {d : TypeDeclaration} {m : Method}, IsNamed u → IsSpelled d m →
      ∀ p ∈ m.parameters.map (u.qualifiedParameter d.path), IsPlain p :=
    fun hu hm => List.forall_mem_map.mpr fun p hp => isPlain_qualifiedParameter hu _ (hm.parameters p hp)
  refine ⟨declaringClass_methodSignature hu hm, fun hsame => ?_, fun ⟨hpath, hname, hparameters⟩ => ?_⟩
  · have hcut := cutFirst?_methodSignature hu hm
    rw [hsame, cutFirst?_methodSignature hu' hm'] at hcut
    obtain ⟨hhead, hrest⟩ := Prod.mk.inj (Option.some.inj hcut)
    have hpath : u.typePath d = u'.typePath d' := by
      rw [← declaringClass_methodSignature hu hm, hsame, declaringClass_methodSignature hu' hm']
    refine ⟨hpath, ?_, ?_⟩
    · rw [hpath] at hhead
      exact ((String.append_right_inj _).mp hhead).symm
    · exact eq_of_intercalate_eq (hplain hu hm) (hplain hu' hm') ((String.append_left_inj _).mp hrest).symm
  · rw [CompilationUnit.methodSignature, CompilationUnit.methodSignature, hpath, hname, hparameters]

/-- A class with two methods of one name: one takes an array of lists and any number of texts, one a list. -/
def listClass : TypeDeclaration :=
  let m : Method := ⟨"m", .publicAccess, false, [⟨"a", "List<A>[]", false⟩, ⟨"b", "String", true⟩], .empty⟩
  let m' : Method := ⟨"m", .publicAccess, false, [⟨"a", "List<A>", false⟩], .empty⟩
  ⟨"A", ["A"], .classType, none, [], [], [m, m'], [], .initializer .empty⟩

def listUnit : CompilationUnit := ⟨some "p.q", [⟨"java.util.List", false, false⟩], [listClass]⟩

private theorem isNamed_listUnit : IsNamed listUnit where
  package := by
    intro package hpackage
    obtain rfl := Option.some.inj hpackage
    exact ⟨["p", "q"], by decide, by decide +kernel, by decide +kernel⟩
  imports := List.forall_mem_singleton.mpr
    ⟨["java", "util", "List"], by decide, by decide +kernel, by decide +kernel⟩
  types := by decide +kernel

private theorem isSpelled_listClass {m : Method} (hm : m ∈ listClass.methods) : IsSpelled listClass m := by
  have hmethods : ∀ m ∈ listClass.methods, IsName m.name ∧
      ∀ p ∈ m.parameters, IsPlain (TypeText.erase p.typeName) := by
    decide +kernel
  exact ⟨by decide +kernel, (hmethods m hm).1, (hmethods m hm).2⟩

/-- The class is cut off both signatures, and they are different as what the methods take is different. -/
theorem signature_read_back_overloads :
    listClass.methods.map (listUnit.methodSignature listClass) =
      ["p.q.A.m(java.util.List[], java.lang.String...)", "p.q.A.m(java.util.List)"] ∧
    ∀ m ∈ listClass.methods, ∀ m' ∈ listClass.methods,
      declaringClass (listUnit.methodSignature listClass m) = "p.q.A" ∧
        (listUnit.methodSignature listClass m = listUnit.methodSignature listClass m' →
          m.parameters.map (listUnit.qualifiedParameter ["A"]) =
            m'.parameters.map (listUnit.qualifiedParameter ["A"])) := by
  refine ⟨by decide +kernel, fun m hm m' hm' => ?_⟩
  obtain ⟨hclass, hsame⟩ := signature_read_back isNamed_listUnit (isSpelled_listClass hm) isNamed_listUnit
    (isSpelled_listClass hm')
  exact ⟨hclass.trans (by decide +kernel), fun h => (hsame.mp h).2.2⟩

end StructureGraph.Resolution
