import StructureGraph.Proofs.Resolution.Candidates
import StructureGraph.Proofs.Resolution.Correspondence
import StructureGraph.Resolution.Call
import StructureGraph.Resolution.Sources

namespace StructureGraph

open StructureGraph.Java

namespace Java.CompilationUnit

/-- The same unit without its static imports. -/
def withoutStatics (u : CompilationUnit) : CompilationUnit :=
  { u with imports := u.imports.filter fun i => !i.isStatic }

variable (u : CompilationUnit)

private theorem singleImport?_withoutStatics : u.withoutStatics.singleImport? = u.singleImport? := by
  funext name
  have hsame : ∀ i : Import, decide ((!i.isStatic) = true ∧ (!i.isStatic && i.simpleName? == some name) = true) =
      (!i.isStatic && i.simpleName? == some name) := by
    intro i
    rw [Bool.eq_iff_iff]
    simp
  rw [singleImport?, singleImport?, withoutStatics, List.find?_filter]
  simp only [hsame]

private theorem wildcardImports_withoutStatics : u.withoutStatics.wildcardImports = u.wildcardImports := by
  rw [wildcardImports, wildcardImports, withoutStatics, List.filter_filter]
  exact List.filter_congr fun i _ => by cases i.isStatic <;> simp

private theorem typeCandidates_withoutStatics : u.withoutStatics.typeCandidates = u.typeCandidates := by
  funext scope written
  rw [typeCandidates, typeCandidates, singleImport?_withoutStatics, wildcardImports_withoutStatics]
  rfl

private theorem qualifyType_withoutStatics : u.withoutStatics.qualifyType = u.qualifyType := by
  funext scope written
  rw [qualifyType, qualifyType, typeCandidates_withoutStatics]

private theorem methodSignature_withoutStatics : u.withoutStatics.methodSignature = u.methodSignature := by
  have hparameter : u.withoutStatics.qualifiedParameter = u.qualifiedParameter := by
    funext scope p
    rw [qualifiedParameter, qualifiedParameter, qualifyType_withoutStatics]
  funext d m
  rw [methodSignature, methodSignature, hparameter]
  rfl

end Java.CompilationUnit

namespace Resolution

open StructureGraph.Text (beforeLast? lastSegment)

variable {find find' : String → Option FoundType} {name owner text : String}
  {arguments : List (Option String)}

/-- The same type in the unit without its static imports. -/
def FoundType.withoutStatics : FoundType → FoundType
  | declared u d => declared u.withoutStatics d
  | builtin t => builtin t

/-- What is found where no unit has static imports. -/
def withoutStatics (find : String → Option FoundType) (name : String) : Option FoundType :=
  (find name).map FoundType.withoutStatics

private theorem rel_withoutStatics (found : Option FoundType) :
    Option.Rel (fun t t' => t' = t.withoutStatics) found (found.map FoundType.withoutStatics) := by
  cases found with
  | none => exact .none
  | some t => exact .some rfl

private theorem eq_map_of_rel {found found' : Option FoundType}
    (h : Option.Rel (fun t t' => t' = t.withoutStatics) found found') :
    found' = found.map FoundType.withoutStatics := by
  cases h with
  | none => rfl
  | some h => rw [h, Option.map_some]

/-- A search takes the same course in the world without static imports. -/
theorem corresponds_withoutStatics (find : String → Option FoundType) (name : String)
    (arguments : List (Option String)) :
    Corresponds find (withoutStatics find) name arguments fun t t' => t' = t.withoutStatics where
  qualifiedName_eq := by
    rintro t _ rfl
    cases t <;> rfl
  verdict_eq := by
    rintro t _ rfl
    cases t with
    | declared u d =>
      rw [FoundType.verdict, FoundType.verdict, FoundType.withoutStatics, FoundType.candidates,
        FoundType.candidates, CompilationUnit.methodSignature_withoutStatics]
    | builtin t => rfl
  parents := by
    rintro t _ rfl
    cases t with
    | declared u d =>
      exact forall₂_parents (fun n => rel_withoutStatics (find n)) rfl
        (CompilationUnit.typeCandidates_withoutStatics u).symm rfl rfl rfl
    | builtin t =>
      rw [FoundType.withoutStatics, FoundType.parents, FoundType.parents]
      cases t.superclass with
      | none => exact .nil
      | some w => exact forall₂_toList (rel_withoutStatics (find w))

private theorem run_lookup_withoutStatics (t : FoundType) :
    (lookup t.withoutStatics name arguments).run (withoutStatics find) =
      (lookup t name arguments).run find :=
  ((corresponds_withoutStatics find name arguments).run_lookup rfl).symm

private theorem typeOf?_withoutStatics (names : List String) (n : Nat) (u : CompilationUnit) :
    typeOf? names n u.withoutStatics = (typeOf? names n u).map FoundType.withoutStatics := by
  rw [typeOf?, typeOf?]
  show (if packageLength u + 1 = n then _ else _) = _
  split
  · rw [Option.map_map]
    rfl
  · rfl

/-- Directories whose files differ in static imports only declare types that differ in them only. -/
theorem withoutStatics_findType? {files files' : Files} (h : ∀ path,
    (loadUnit? files path).map CompilationUnit.withoutStatics =
      (loadUnit? files' path).map CompilationUnit.withoutStatics) (origins : List Origin) :
    withoutStatics (findType? files origins) = withoutStatics (findType? files' origins) := by
  have hdeclared : ∀ directory names n,
      (declaredIn? files directory names n).map FoundType.withoutStatics =
        (declaredIn? files' directory names n).map FoundType.withoutStatics := by
    intro directory names n
    have hbind : ∀ u? : Option CompilationUnit, (u?.bind (typeOf? names n)).map FoundType.withoutStatics =
        (u?.map CompilationUnit.withoutStatics).bind (typeOf? names n) := by
      intro u?
      cases u? with
      | none => rfl
      | some u => exact (typeOf?_withoutStatics names n u).symm
    rw [declaredIn?, declaredIn?, hbind, hbind, h]
  have horigin : ∀ name o, (Origin.find? files name o).map FoundType.withoutStatics =
      (Origin.find? files' name o).map FoundType.withoutStatics := by
    intro name o
    cases o with
    | directory path =>
      simp only [Origin.find?, declaredType?, List.map_findSome?, Function.comp_def, hdeclared]
    | builtin => rfl
  funext name
  simp only [withoutStatics, findType?, List.map_findSome?, Function.comp_def, horigin]

namespace Site

variable {s : Site} {c : Call}

def withoutStatics (s : Site) : Site := { s with unit := s.unit.withoutStatics }

private theorem run_writtenType?_withoutStatics (s : Site) (written : String) :
    (s.withoutStatics.writtenType? written).run (Resolution.withoutStatics find) =
      ((s.writtenType? written).run find).map FoundType.withoutStatics :=
  eq_map_of_rel (rel_run_writtenType? (fun n => rel_withoutStatics (find n))
    (CompilationUnit.typeCandidates_withoutStatics s.unit).symm _ _)

private theorem run_receiverType?_withoutStatics (s : Site) (receiver : Receiver) :
    (s.withoutStatics.receiverType? receiver).run (Resolution.withoutStatics find) =
      ((s.receiverType? receiver).run find).map FoundType.withoutStatics := by
  have hdeclaration : s.withoutStatics.declaration = s.declaration := rfl
  cases receiver with
  | implicit => rfl
  | this => rfl
  | super =>
    rw [receiverType?, receiverType?, hdeclaration]
    cases s.declaration.superclass with
    | some parent => exact run_writtenType?_withoutStatics s parent
    | none => rfl
  | name text =>
    have hvariable : s.withoutStatics.variableType? = s.variableType? := rfl
    rw [receiverType?, receiverType?, namedType?, namedType?, hvariable]
    cases (if text.toList.contains '.' then none else s.variableType? text) with
    | some type => exact run_writtenType?_withoutStatics s type
    | none =>
      simp only
      split
      · exact run_writtenType?_withoutStatics s text
      · rfl
  | thisField name =>
    rw [receiverType?, receiverType?, hdeclaration]
    cases s.declaration.field? name with
    | some f => exact run_writtenType?_withoutStatics s f.typeName
    | none => rfl
  | created type => exact run_writtenType?_withoutStatics s type
  | cast type => exact run_writtenType?_withoutStatics s type
  | expression text => rfl

private theorem run_resolveOn_withoutStatics (s : Site) (c : Call) (found : Option FoundType) :
    (s.withoutStatics.resolveOn c (found.map FoundType.withoutStatics)).run
        (Resolution.withoutStatics find) = (s.resolveOn c found).run find := by
  cases found with
  | none => rfl
  | some t =>
    have harguments : s.withoutStatics.argumentTypes c = s.argumentTypes c := rfl
    rw [Option.map_some, resolveOn, resolveOn, Inquiry.run_bind, Inquiry.run_bind, harguments,
      run_lookup_withoutStatics]
    cases (lookup t c.name (s.argumentTypes c)).run find <;> rfl

/-- A call with a receiver means the same without static imports. -/
theorem run_resolve_withoutStatics (h : c.receiver ≠ .implicit) :
    (s.withoutStatics.resolve c).run (Resolution.withoutStatics find) = (s.resolve c).run find := by
  rw [resolve, resolve]
  split
  · contradiction
  · rfl
  · rw [Inquiry.run_bind, Inquiry.run_bind, run_receiverType?_withoutStatics,
      run_resolveOn_withoutStatics]

private theorem run_inherited_withoutStatics (s : Site) (c : Call) (ds : List TypeDeclaration) :
    (s.withoutStatics.inherited c ds).run (Resolution.withoutStatics find) =
      (s.inherited c ds).run find := by
  induction ds with
  | nil => rfl
  | cons d ds ih =>
    have hlookup : (lookup (.declared s.withoutStatics.unit d) c.name
        (s.withoutStatics.argumentTypes c)).run (Resolution.withoutStatics find) =
          (lookup (.declared s.unit d) c.name (s.argumentTypes c)).run find :=
      run_lookup_withoutStatics (.declared s.unit d)
    rw [inherited, inherited, Inquiry.run_bind, Inquiry.run_bind, hlookup]
    cases (lookup (.declared s.unit d) c.name (s.argumentTypes c)).run find with
    | missing => exact ih
    | signature text => rfl
    | ambiguous => rfl

/-- One of the enclosing types, with its supertypes, says something to the call. -/
def IsAnsweredInside (find : String → Option FoundType) (s : Site) (c : Call) : Prop :=
  ∃ d ∈ s.enclosing, (lookup (.declared s.unit d) c.name (s.argumentTypes c)).run find ≠ .missing

private theorem run_inherited_eq_missing_iff {ds : List TypeDeclaration} :
    (s.inherited c ds).run find = .missing ↔
      ∀ d ∈ ds, (lookup (.declared s.unit d) c.name (s.argumentTypes c)).run find = .missing := by
  induction ds with
  | nil => simp [inherited, Inquiry.run_pure]
  | cons d ds ih =>
    rw [inherited, Inquiry.run_bind, List.forall_mem_cons]
    cases (lookup (.declared s.unit d) c.name (s.argumentTypes c)).run find with
    | missing => simpa using ih
    | signature text => simp [Inquiry.run_pure]
    | ambiguous => simp [Inquiry.run_pure]

private theorem not_isAnsweredInside_iff :
    ¬s.IsAnsweredInside find c ↔ (s.inherited c s.enclosing).run find = .missing := by
  simp only [run_inherited_eq_missing_iff, IsAnsweredInside, not_exists, not_and, not_not]

private theorem isAnsweredInside_withoutStatics :
    s.withoutStatics.IsAnsweredInside (Resolution.withoutStatics find) c ↔ s.IsAnsweredInside find c := by
  have henclosing : s.withoutStatics.enclosing = s.enclosing := rfl
  rw [← not_iff_not, not_isAnsweredInside_iff, not_isAnsweredInside_iff, henclosing,
    run_inherited_withoutStatics]

/-- What the enclosing types answer is the same without static imports. -/
theorem run_resolve_of_isAnsweredInside (hreceiver : c.receiver = .implicit)
    (h : s.IsAnsweredInside find c) :
    (s.withoutStatics.resolve c).run (Resolution.withoutStatics find) = (s.resolve c).run find := by
  have hinherited : (s.withoutStatics.inherited c s.enclosing).run (Resolution.withoutStatics find) =
      (s.inherited c s.enclosing).run find := run_inherited_withoutStatics s c s.enclosing
  have henclosing : s.withoutStatics.enclosing = s.enclosing := rfl
  have hanswer : (s.inherited c s.enclosing).run find ≠ .missing := by
    rwa [ne_eq, ← not_isAnsweredInside_iff, not_not]
  rw [resolve, resolve, hreceiver]
  show (s.withoutStatics.resolveImplicit c).run _ = (s.resolveImplicit c).run _
  rw [resolveImplicit, resolveImplicit, Inquiry.run_bind, Inquiry.run_bind, henclosing, hinherited]
  cases hv : (s.inherited c s.enclosing).run find with
  | missing => exact absurd hv hanswer
  | signature text => rfl
  | ambiguous => rfl

end Site

/-- A static import makes a member of a type visible under its name, or all its members. -/
inductive Offers (name owner : String) : Import → Prop where
  | all : Offers name owner ⟨owner, true, true⟩
  | member : '.' ∉ name.toList → Offers name owner ⟨owner ++ "." ++ name, true, false⟩

namespace Site

variable {s : Site} {c : Call} {i : Import}

private theorem importedOwner?_eq_some_iff :
    (if i.isStatic then importedOwner? name i else none) = some owner ↔ Offers name owner i := by
  rw [Option.ite_none_right_eq_some]
  constructor
  · rintro ⟨hstatic, howner⟩
    obtain ⟨path, isStatic, isWildcard⟩ := i
    obtain rfl : isStatic = true := hstatic
    cases isWildcard with
    | true =>
      obtain rfl : path = owner := Option.some.inj howner
      exact .all
    | false =>
      rw [importedOwner?, if_neg Bool.false_ne_true] at howner
      split at howner
      · rename_i hlast
        have hname : lastSegment '.' path = name := Option.some.inj hlast
        have hbefore : beforeLast? '.' path = some owner := howner
        obtain ⟨hpath, hsimple⟩ := Text.eq_of_beforeLast? hbefore
        rw [hname] at hpath hsimple
        rw [hpath]
        exact .member hsimple
      · cases howner
  · intro h
    cases h with
    | all => exact ⟨rfl, rfl⟩
    | member hsimple =>
      refine ⟨rfl, ?_⟩
      have hname : Import.simpleName? ⟨owner ++ "." ++ name, true, false⟩ = some name :=
        congrArg some (Text.lastSegment_append hsimple)
      rw [importedOwner?, if_neg Bool.false_ne_true, if_pos hname]
      exact Text.beforeLast?_append hsimple

/-- A static import leads to a type that says to the call which signature it means. -/
def Gives (find : String → Option FoundType) (s : Site) (c : Call) (i : Import) (text : String) : Prop :=
  ∃ owner t, Offers c.name owner i ∧ find owner = some t ∧
    (lookup t c.name (s.argumentTypes c)).run find = .signature text

/-- The signature that a type of a name gives to the call. -/
def signatureIn? (find : String → Option FoundType) (s : Site) (c : Call) (owner : String) :
    Option String :=
  (find owner).bind fun t =>
    match (lookup t c.name (s.argumentTypes c)).run find with
    | .signature text => some text
    | _ => none

private theorem run_imported (owners : List String) : (s.imported c owners).run find =
    (owners.findSome? (s.signatureIn? find c)).elim .missing .signature := by
  induction owners with
  | nil => rfl
  | cons owner owners ih =>
    have howner : (Inquiry.type? owner).run find = find owner := rfl
    rw [imported, Inquiry.run_bind, List.findSome?_cons, signatureIn?, howner]
    cases find owner with
    | none => exact ih
    | some t =>
      rw [Option.bind_some]
      simp only [Inquiry.run_bind]
      cases (lookup t c.name (s.argumentTypes c)).run find with
      | signature text => rfl
      | ambiguous => exact ih
      | missing => exact ih

private theorem signatureIn?_eq_some_iff : s.signatureIn? find c owner = some text ↔
    ∃ t, find owner = some t ∧ (lookup t c.name (s.argumentTypes c)).run find = .signature text := by
  rw [signatureIn?, Option.bind_eq_some_iff]
  refine exists_congr fun t => and_congr_right fun _ => ?_
  cases (lookup t c.name (s.argumentTypes c)).run find <;> simp

/-- What the static imports say is what the first of them says that says anything. -/
theorem run_imported_eq_signature_iff :
    (s.imported c (s.staticOwners c.name)).run find = .signature text ↔
      ∃ before i after, s.unit.imports = before ++ i :: after ∧ s.Gives find c i text ∧
        ∀ j ∈ before, ∀ text', ¬s.Gives find c j text' := by
  let given? (i : Import) : Option String :=
    (if i.isStatic then importedOwner? c.name i else none).bind (s.signatureIn? find c)
  have hgives : ∀ i text, given? i = some text ↔ s.Gives find c i text := by
    intro i text
    simp only [given?, Option.bind_eq_some_iff, importedOwner?_eq_some_iff, signatureIn?_eq_some_iff,
      Gives, exists_and_left]
  have howners : (s.staticOwners c.name).findSome? (s.signatureIn? find c) =
      s.unit.imports.findSome? given? := by
    rw [staticOwners, List.filterMap_filter, findSome?_filterMap]
  have hfirst : (s.imported c (s.staticOwners c.name)).run find = .signature text ↔
      s.unit.imports.findSome? given? = some text := by
    rw [run_imported, howners]
    cases s.unit.imports.findSome? given? <;> simp
  rw [hfirst, List.findSome?_eq_some_iff]
  simp only [Option.eq_none_iff_forall_ne_some, ne_eq, hgives]

/-- A call that no enclosing type answers means what the static imports say, if they say anything. -/
theorem run_resolve_of_not_isAnsweredInside (hreceiver : c.receiver = .implicit)
    (h : ¬s.IsAnsweredInside find c) :
    (s.resolve c).run find = match (s.imported c (s.staticOwners c.name)).run find with
      | .signature text => .resolved text
      | _ => .unresolved (.noMethodInScope c.name) := by
  rw [resolve, hreceiver]
  show (s.resolveImplicit c).run find = _
  rw [resolveImplicit, Inquiry.run_bind, not_isAnsweredInside_iff.mp h]
  simp only [Inquiry.run_bind]
  cases (s.imported c (s.staticOwners c.name)).run find <;> rfl

private theorem run_resolve_eq_resolved_iff (hreceiver : c.receiver = .implicit)
    (h : ¬s.IsAnsweredInside find c) : (s.resolve c).run find = .resolved text ↔
      ∃ before i after, s.unit.imports = before ++ i :: after ∧ s.Gives find c i text ∧
        ∀ j ∈ before, ∀ text', ¬s.Gives find c j text' := by
  rw [run_resolve_of_not_isAnsweredInside hreceiver h, ← run_imported_eq_signature_iff]
  cases (s.imported c (s.staticOwners c.name)).run find <;> simp

private theorem run_resolve_of_forall_not_gives (hreceiver : c.receiver = .implicit)
    (h : ¬s.IsAnsweredInside find c) (hnone : ∀ i ∈ s.unit.imports, ∀ text, ¬s.Gives find c i text) :
    (s.resolve c).run find = .unresolved (.noMethodInScope c.name) := by
  rw [run_resolve_of_not_isAnsweredInside hreceiver h]
  cases hv : (s.imported c (s.staticOwners c.name)).run find with
  | signature text =>
    obtain ⟨before, i, after, himports, hgives, -⟩ := run_imported_eq_signature_iff.mp hv
    exact absurd hgives (hnone i (by simp [himports]) text)
  | ambiguous => rfl
  | missing => rfl

end Site

/-- Names of types, signatures of declared methods and searches for methods are the same in two worlds
whose units differ in their static imports only, and directories whose files differ so are such worlds. So
are calls with a receiver, and calls without one that an enclosing type answers. A call that none answers
means what the first static import gives that gives a signature. -/
theorem static_imports_are_last_resort :
    (∀ (files files' : Files) (origins : List Origin),
      (∀ path, (loadUnit? files path).map CompilationUnit.withoutStatics =
        (loadUnit? files' path).map CompilationUnit.withoutStatics) →
      withoutStatics (findType? files origins) = withoutStatics (findType? files' origins)) ∧
    ∀ (find find' : String → Option FoundType) (u u' : CompilationUnit),
      withoutStatics find = withoutStatics find' → u.withoutStatics = u'.withoutStatics →
      (u.typeCandidates = u'.typeCandidates ∧ u.qualifyType = u'.qualifyType ∧
        u.methodSignature = u'.methodSignature) ∧
      (∀ t t' name arguments, t.withoutStatics = t'.withoutStatics →
        (lookup t name arguments).run find = (lookup t' name arguments).run find') ∧
      ∀ (d : TypeDeclaration) (body : Method) (c : Call),
        let s : Site := ⟨u, d, body⟩
        let s' : Site := ⟨u', d, body⟩
        (c.receiver ≠ .implicit ∨ s.IsAnsweredInside find c →
          (s.resolve c).run find = (s'.resolve c).run find') ∧
        (s.IsAnsweredInside find c ↔ s'.IsAnsweredInside find' c) ∧
        (c.receiver = .implicit → ¬s.IsAnsweredInside find c →
          (∀ text, (s.resolve c).run find = .resolved text ↔
            ∃ before i after, u.imports = before ++ i :: after ∧ s.Gives find c i text ∧
              ∀ j ∈ before, ∀ text', ¬s.Gives find c j text') ∧
          ((∀ i ∈ u.imports, ∀ text, ¬s.Gives find c i text) →
            (s.resolve c).run find = .unresolved (.noMethodInScope c.name))) := by
  refine ⟨fun files files' origins h => withoutStatics_findType? h origins,
    fun find find' u u' hfind hu => ⟨⟨?_, ?_, ?_⟩, fun t t' name arguments ht => ?_, fun d body c => ?_⟩⟩
  · rw [← u.typeCandidates_withoutStatics, hu, u'.typeCandidates_withoutStatics]
  · rw [← u.qualifyType_withoutStatics, hu, u'.qualifyType_withoutStatics]
  · rw [← u.methodSignature_withoutStatics, hu, u'.methodSignature_withoutStatics]
  · rw [← run_lookup_withoutStatics t, ht, hfind, run_lookup_withoutStatics]
  · intro s s'
    have hs : s.withoutStatics = s'.withoutStatics := by
      rw [Site.withoutStatics, Site.withoutStatics, hu]
    have hanswered : s.IsAnsweredInside find c ↔ s'.IsAnsweredInside find' c := by
      rw [← Site.isAnsweredInside_withoutStatics, hs, hfind, Site.isAnsweredInside_withoutStatics]
    refine ⟨fun hcall => ?_, hanswered, fun himplicit hunanswered =>
      ⟨fun text => Site.run_resolve_eq_resolved_iff himplicit hunanswered,
        Site.run_resolve_of_forall_not_gives himplicit hunanswered⟩⟩
    by_cases hreceiver : c.receiver = .implicit
    · have hinside := hcall.resolve_left (not_not_intro hreceiver)
      rw [← Site.run_resolve_of_isAnsweredInside hreceiver hinside, hs, hfind,
        Site.run_resolve_of_isAnsweredInside hreceiver (hanswered.mp hinside)]
    · rw [← Site.run_resolve_withoutStatics hreceiver, hs, hfind,
        Site.run_resolve_withoutStatics hreceiver]

/-- Two static imports in one order and in the other. A call that they answer means another method, a call
with a receiver does not, nor does one that the enclosing type answers. -/
theorem static_imports_are_last_resort_reordered :
    let m : Method := ⟨"m", .publicAccess, true, [], .empty⟩
    let f : Method := ⟨"f", .publicAccess, false, [], .empty⟩
    let find := hierarchy [loneType .classType "A" none [] [m], loneType .classType "B" none [] [m]]
    let d : TypeDeclaration := ⟨"C", ["C"], .classType, none, [], [], [f], [], .initializer .empty⟩
    let u : CompilationUnit := ⟨none, [⟨"A.m", true, false⟩, ⟨"B", true, true⟩], [d]⟩
    let u' : CompilationUnit := ⟨none, [⟨"B", true, true⟩, ⟨"A.m", true, false⟩], [d]⟩
    let s : Site := ⟨u, d, f⟩
    let s' : Site := ⟨u', d, f⟩
    u.withoutStatics = u'.withoutStatics ∧
      (s.resolve ⟨"m", .implicit, [], 1⟩).run find = .resolved "A.m()" ∧
      (s'.resolve ⟨"m", .implicit, [], 1⟩).run find = .resolved "B.m()" ∧
      (s.resolve ⟨"f", .implicit, [], 1⟩).run find = (s'.resolve ⟨"f", .implicit, [], 1⟩).run find ∧
      (s.resolve ⟨"m", .name "A", [], 1⟩).run find = (s'.resolve ⟨"m", .name "A", [], 1⟩).run find := by
  intro m f find d u u' s s'
  have hu : u.withoutStatics = u'.withoutStatics := by decide
  obtain ⟨-, -, hcalls⟩ := static_imports_are_last_resort.2 find find u u' rfl hu
  obtain ⟨-, -, hcalls'⟩ := static_imports_are_last_resort.2 find find u' u rfl hu.symm
  have henclosing : s.enclosing = [d] := by decide
  have hunanswered : ¬s.IsAnsweredInside find ⟨"m", .implicit, [], 1⟩ := by
    have hmissing : (lookup (.declared u d) "m" []).run find = .missing := by
      have hclass : SearchState.Step find "m" [] (.start (.declared u d))
          ⟨["C"], [(.builtin .object, 1)]⟩ := .expand (by decide) (by decide) (by decide +kernel)
      have hroot : SearchState.Step find "m" [] ⟨["C"], [(.builtin .object, 1)]⟩
          ⟨["java.lang.Object", "C"], []⟩ := .expand (by decide) (by decide) (by decide)
      rw [run_lookup_eq_outcome, SearchState.outcome_of_step hclass, SearchState.outcome_of_step hroot,
        SearchState.outcome_of_ends .exhausted]
    rintro ⟨d', hd', hanswer⟩
    rw [henclosing, List.mem_singleton] at hd'
    exact hanswer (hd' ▸ hmissing)
  have hanswered : s.IsAnsweredInside find ⟨"f", .implicit, [], 1⟩ := by
    have hfound : (lookup (.declared u d) "f" []).run find = .signature "C.f()" :=
      run_lookup_of_signature (by decide +kernel)
    exact ⟨d, by simp [henclosing], hfound.trans_ne Verdict.noConfusion⟩
  have ha : (lookup (loneType .classType "A" none [] [m]) "m" []).run find = .signature "A.m()" :=
    run_lookup_of_signature (by decide +kernel)
  have hb : (lookup (loneType .classType "B" none [] [m]) "m" []).run find = .signature "B.m()" :=
    run_lookup_of_signature (by decide +kernel)
  refine ⟨hu, ?_, ?_, (hcalls d f _).1 (.inr hanswered), (hcalls d f _).1 (.inl (by decide))⟩
  · refine (((hcalls d f _).2.2 rfl hunanswered).1 "A.m()").mpr ⟨[], _, _, rfl, ?_, by simp⟩
    exact ⟨"A", _, .member (by decide), rfl, ha⟩
  · have hunanswered' := mt (hcalls d f _).2.1.mpr hunanswered
    refine (((hcalls' d f _).2.2 rfl hunanswered').1 "B.m()").mpr ⟨[], _, _, rfl, ?_, by simp⟩
    exact ⟨"B", _, .all, rfl, hb⟩

end Resolution

end StructureGraph
