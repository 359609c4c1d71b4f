import StructureGraph.Proofs.Java.Facts
import StructureGraph.Proofs.Resolution.Call
import StructureGraph.Proofs.Resolution.Significance
import StructureGraph.Workspace

namespace StructureGraph

open Input (Location sourceRoot)
open Java (CompilationUnit DeclaredMethod)
open Resolution

section

variable {ε ε' α β : Type}

theorem exists_of_bind_eq_ok {x : Except ε α} {f : α → Except ε β} {b : β} (h : x >>= f = .ok b) :
    ∃ a, x = .ok a ∧ f a = .ok b := by
  cases x with
  | error e => cases h
  | ok a => exact ⟨a, rfl, h⟩

private theorem exists_of_map_eq_ok {x : Except ε α} {f : α → β} {b : β} (h : x.map f = .ok b) :
    ∃ a, x = .ok a ∧ f a = b := by
  cases x with
  | error e => cases h
  | ok a => exact ⟨a, rfl, Except.ok.inj h⟩

theorem eq_ok_of_mapError_eq_ok {x : Except ε α} {f : ε → ε'} {a : α} (h : x.mapError f = .ok a) :
    x = .ok a := by
  cases x with
  | error e => cases h
  | ok a' => exact congrArg _ (Except.ok.inj h)

end

/-- All methods that the readable ones among some sources declare. -/
def declaredMethods (files : Files) (sources : List String) : List DeclaredMethod :=
  sources.flatMap fun path =>
    match readUnit files path with
    | .ok u => DeclaredMethod.ofUnit u
    | .error _ => []

private theorem mem_declaredMethods {files : Files} {sources : List String} {m : DeclaredMethod} :
    m ∈ declaredMethods files sources ↔
      ∃ path ∈ sources, readUnit files path = .ok m.unit ∧ m ∈ DeclaredMethod.ofUnit m.unit := by
  rw [declaredMethods, List.mem_flatMap]
  refine exists_congr fun path => and_congr_right fun _ => ?_
  cases hu : readUnit files path with
  | error e => simp
  | ok u =>
    rw [Except.ok.injEq]
    exact ⟨fun hm => by rw [(DeclaredMethod.mem_ofUnit.mp hm).1]; exact ⟨rfl, hm⟩,
      fun ⟨hu, hm⟩ => hu ▸ hm⟩

/-- A unit that a directory loads is that of a source in the same place. -/
theorem readUnit_of_loadUnit? {files : Files} {file path : String} {u : CompilationUnit}
    (h : loadUnit? files file = some u) (hplace : files.place? path = files.place? file) :
    readUnit files path = .ok u := by
  have htext : files.text? path = files.text? file := by
    simp only [Files.text?, Files.bytes?, Files.entry?, hplace]
  obtain ⟨text, hfile, hunit⟩ := Option.bind_eq_some_iff.mp h
  rw [toOption_ofText file path] at hunit
  have hread : readUnit files path = CompilationUnit.ofText path text := by
    rw [readUnit, htext, hfile]
  rw [hread]
  cases hparsed : CompilationUnit.ofText path text with
  | ok u' =>
    rw [hparsed] at hunit
    exact congrArg Except.ok (Option.some.inj hunit)
  | error e =>
    rw [hparsed] at hunit
    cases hunit

private theorem mem_sites {u : CompilationUnit} {x : Site × Java.Call} (h : x ∈ sites u) :
    x.1.unit = u ∧ x.1.declaration ∈ u.types := by
  obtain ⟨d, hd, h⟩ := List.mem_flatMap.mp h
  obtain ⟨m, -, h⟩ := List.mem_flatMap.mp h
  obtain ⟨c, -, rfl⟩ := List.mem_map.mp h
  exact ⟨rfl, hd⟩

/-- The signature is that of a known method of `java.lang`. -/
def IsBuiltinSignature (signature : String) : Prop :=
  ∃ t ∈ BuiltinType.all, ∃ m ∈ t.methods, t.signature m = signature

/-- The signature is that of a method in a file that is not one of the sources. -/
def IsForeignSignature (files : Files) (sources : List String) (signature : String) : Prop :=
  ∃ file m, loadUnit? files file = some m.unit ∧ m ∈ DeclaredMethod.ofUnit m.unit ∧
    m.signature = signature ∧ ∀ path ∈ sources, files.place? path ≠ files.place? file

/-- A call in a source means a method of a source, unless the method is elsewhere. The unit from which
its signature was taken is the one in which it is declared. -/
theorem declaredMethod_of_resolve {files : Files} {origins : List Origin} {sources : List String}
    {path signature : String} {u : CompilationUnit} {x : Site × Java.Call} (hpath : path ∈ sources)
    (hu : readUnit files path = .ok u) (hx : x ∈ sites u)
    (h : (x.1.resolve x.2).run (findType? files origins) = .resolved signature) :
    (∃ m ∈ declaredMethods files sources, m.signature = signature) ∨
      IsBuiltinSignature signature ∨ IsForeignSignature files sources signature := by
  obtain ⟨hunit, hdeclaration⟩ := mem_sites hx
  obtain ⟨t, ht, hverdict⟩ := Site.isAnswered_of_resolve (hunit ▸ hdeclaration) h
  rw [hunit] at ht
  cases ht with
  | own hd =>
    obtain ⟨m, hm, -, -, hsignature, -⟩ := overload_of_verdict hverdict
    exact .inl ⟨⟨u, _, m⟩,
      mem_declaredMethods.mpr ⟨path, hpath, hu, DeclaredMethod.mem_ofUnit.mpr ⟨rfl, hd, hm⟩⟩,
      hsignature⟩
  | @loaded u' d hu' hd =>
    obtain ⟨directory, name, -, hload⟩ := hu'
    obtain ⟨m, hm, -, -, hsignature, -⟩ := overload_of_verdict hverdict
    have hmem : (⟨u', d, m⟩ : DeclaredMethod) ∈ DeclaredMethod.ofUnit u' :=
      DeclaredMethod.mem_ofUnit.mpr ⟨rfl, hd, hm⟩
    by_cases hplace : ∃ path' ∈ sources, files.place? path' = files.place? (typeFile directory name)
    · obtain ⟨path', hpath', hplace⟩ := hplace
      exact .inl ⟨_, mem_declaredMethods.mpr
        ⟨path', hpath', readUnit_of_loadUnit? hload hplace, hmem⟩, hsignature⟩
    · exact .inr (.inr ⟨_, _, hload, hmem, hsignature,
        fun path' hpath' heq => hplace ⟨path', hpath', heq⟩⟩)
  | builtin ht =>
    obtain ⟨m, hm, -, -, hsignature⟩ := builtin_of_verdict hverdict
    exact .inr (.inl ⟨_, ht, m, hm, hsignature⟩)

namespace Workspace

variable {w : Workspace} {names sources : List String}

private theorem facts_statedFacts (w : Workspace) (names sources : List String) :
    (w.statedFacts names sources).facts = sources.flatMap fun path =>
      match readUnit w.files path with
      | .ok u => w.settings.extraction.facts (some names) u
      | .error _ => [] := by
  simp only [statedFacts, List.flatMap_map]
  congr 1
  funext path
  cases readUnit w.files path <;> rfl

private theorem failed_statedFacts (w : Workspace) (names sources : List String) :
    (w.statedFacts names sources).failed =
      sources.filter fun path => !(readUnit w.files path).isOk := by
  rw [← List.filterMap_eq_filter]
  simp only [statedFacts, List.filterMap_map]
  refine congrFun (congrArg _ (funext fun path => ?_)) sources
  simp only [Function.comp_def, Option.guard]
  beta_reduce
  cases readUnit w.files path <;> rfl

/-- Sources that cannot be read state nothing. -/
theorem facts_statedFacts_filter (w : Workspace) (names sources : List String) :
    (w.statedFacts names (sources.filter fun path => (readUnit w.files path).isOk)).facts =
      (w.statedFacts names sources).facts := by
  rw [facts_statedFacts, facts_statedFacts]
  induction sources with
  | nil => rfl
  | cons path sources ih =>
    rw [List.filter_cons, List.flatMap_cons, ← ih]
    cases hu : readUnit w.files path with
    | ok u => simp [Except.isOk, Except.toBool, hu]
    | error e => simp [Except.isOk, Except.toBool]

private theorem filter_isOfMethod_statedFacts (hmethods : w.settings.extraction.methods = true)
    (hpublic : w.settings.extraction.onlyPublicMethods = false) :
    (w.statedFacts names sources).facts.filter Fact.isOfMethod =
      ((declaredMethods w.files sources).filter fun m => names.contains m.signature).flatMap
        (DeclaredMethod.facts w.settings.extraction) := by
  rw [facts_statedFacts, List.filter_flatMap, declaredMethods, List.filter_flatMap,
    List.flatMap_assoc]
  congr 1
  funext path
  cases readUnit w.files path with
  | ok u => exact Java.FactSelection.filter_isOfMethod_facts hmethods hpublic
  | error e => rfl

private theorem filter_declaresMethod_statedFacts (hmethods : w.settings.extraction.methods = true)
    (hpublic : w.settings.extraction.onlyPublicMethods = false) :
    (w.statedFacts names sources).facts.filter Fact.declaresMethod =
      ((declaredMethods w.files sources).filter fun m => names.contains m.signature).map
        DeclaredMethod.fact := by
  have hkind : Fact.declaresMethod = fun f => f.declaresMethod && f.isOfMethod := by
    funext f
    cases f <;> rfl
  have hmethod : (fun m => (DeclaredMethod.facts w.settings.extraction m).filter Fact.declaresMethod) =
      fun m => [DeclaredMethod.fact m] :=
    funext fun m => Java.FactSelection.filter_declaresMethod_methodFacts m.method
  rw [hkind, ← List.filter_filter, filter_isOfMethod_statedFacts hmethods hpublic,
    List.filter_flatMap, hmethod, List.map_eq_flatMap]

private theorem facts_infix_statedFacts (hmethods : w.settings.extraction.methods = true)
    (hpublic : w.settings.extraction.onlyPublicMethods = false) {m : DeclaredMethod}
    (hm : m ∈ declaredMethods w.files sources) (hsignificant : m.signature ∈ names) :
    m.facts w.settings.extraction <:+: (w.statedFacts names sources).facts := by
  obtain ⟨path, hpath, hu, hm⟩ := mem_declaredMethods.mp hm
  refine (Java.FactSelection.methodFacts_infix_facts hmethods hpublic hm hsignificant).trans ?_
  rw [facts_statedFacts, List.flatMap_def]
  refine List.infix_of_mem_flatten (List.mem_map.mpr ⟨path, hpath, ?_⟩)
  rw [hu]

/-- The survey of given sources, with types looked up below a root. -/
def surveyOf (w : Workspace) (dropped : Share) (root : String) (sources : List String) : Survey :=
  let significant := process dropped (Resolution.analyze w.files w.settings.standardPrefixes root sources)
  ⟨sources, significant, w.statedFacts significant.counts.names sources⟩

theorem survey_eq_surveyOf {input : Location} {v : Survey} (h : w.survey input = .ok v) :
    ∃ path dropped, w.inputPath input = .ok path ∧ w.sources path = .ok v.sources ∧
      w.settings.share = .ok dropped ∧
      v = w.surveyOf dropped (sourceRoot w.files path) v.sources := by
  obtain ⟨path, hpath, h⟩ := exists_of_bind_eq_ok h
  obtain ⟨sources, hsources, h⟩ := exists_of_bind_eq_ok h
  obtain ⟨significant, hsignificant, h⟩ := exists_of_bind_eq_ok h
  obtain ⟨dropped, hdropped, hprocess⟩ := exists_of_bind_eq_ok hsignificant
  cases Except.ok.inj h
  cases Except.ok.inj hprocess
  exact ⟨path, dropped, hpath, hsources, eq_ok_of_mapError_eq_ok hdropped, rfl⟩

/-- The survey behind the summary of a build. -/
theorem survey_of_build {input : Location} {summary : BuildSummary}
    (h : (w.build input).2 = .ok summary) :
    ∃ r, w.rebuild input = .ok r ∧ w.survey input = .ok r.survey ∧ summary = r.summary := by
  rw [build] at h
  split at h
  · cases h
  · rename_i r hr
    obtain ⟨-, -, rfl⟩ := exists_of_map_eq_ok h
    obtain ⟨survey, hsurvey, hrest⟩ := exists_of_bind_eq_ok hr
    obtain ⟨opened, -, hrest⟩ := exists_of_bind_eq_ok hrest
    obtain ⟨cleared, -, hrest⟩ := exists_of_bind_eq_ok hrest
    obtain ⟨report, -, hrest⟩ := exists_of_bind_eq_ok hrest
    cases Except.ok.inj hrest
    exact ⟨_, hr, hsurvey, rfl⟩

/-- The facts of a survey are about the significant methods of its sources, each of which some call in
the sources means, and they hold all that is to be said of each. A call that means a significant method
means one that is stated, unless the method is elsewhere. Sources without a tally are without facts. -/
theorem survey_states_significant_methods (w : Workspace) (dropped : Share) (root : String)
    (sources : List String) (hmethods : w.settings.extraction.methods = true)
    (hpublic : w.settings.extraction.onlyPublicMethods = false) :
    let selection := w.settings.extraction
    let tallies := Resolution.analyze w.files w.settings.standardPrefixes root sources
    let names := (process dropped tallies).counts.names
    let stated := w.statedFacts names sources
    let methods := declaredMethods w.files sources
    let means (x : Site × Java.Call) (signature : String) : Prop :=
      ((Resolver.forScope (scope w.files root sources)).pursue w.files (x.1.resolve x.2)).1 =
        .resolved signature
    stated.facts.filter Fact.declaresMethod =
      (methods.filter fun m => names.contains m.signature).map DeclaredMethod.fact ∧
    stated.facts.filter Fact.isOfMethod =
      (methods.filter fun m => names.contains m.signature).flatMap (DeclaredMethod.facts selection) ∧
    (∀ m ∈ methods, m.signature ∈ names → m.facts selection <:+: stated.facts) ∧
    (∀ signature ∈ names, isStandard w.settings.standardPrefixes signature = false ∧
      ∃ path ∈ sources, ∃ u, readUnit w.files path = .ok u ∧ ∃ x ∈ sites u, means x signature) ∧
    (∀ path ∈ sources, ∀ u, readUnit w.files path = .ok u → ∀ x ∈ sites u, ∀ signature,
      means x signature → (∃ m ∈ methods, m.signature = signature) ∨
        IsBuiltinSignature signature ∨ IsForeignSignature w.files sources signature) ∧
    stated.failed = (tallies.filter (·.error.isSome)).map FileTally.path ∧
    (w.statedFacts names (sources.filter fun path => !stated.failed.contains path)).facts =
      stated.facts ∧
    ∀ input summary, (w.build input).2 = .ok summary →
      ∃ path dropped v, w.inputPath input = .ok path ∧ w.settings.share = .ok dropped ∧
        v = w.surveyOf dropped (sourceRoot w.files path) v.sources ∧ w.survey input = .ok v ∧
        summary.failedFiles = v.stated.failed ∧ summary.facts = v.stated.facts.length := by
  intro selection tallies names stated methods means
  have hmeans : ∀ x signature, means x signature ↔ (x.1.resolve x.2).run
      (findType? w.files (originsOf (scope w.files root sources))) = .resolved signature :=
    fun x signature => by
      rw [← Resolver.pursue_ofOrigins]
      rfl
  have hfailed : stated.failed = sources.filter fun path =>
      !(readUnit w.files path).isOk := failed_statedFacts w names sources
  refine ⟨filter_declaresMethod_statedFacts hmethods hpublic,
    filter_isOfMethod_statedFacts hmethods hpublic,
    fun m hm hsignificant => facts_infix_statedFacts hmethods hpublic hm hsignificant,
    fun signature hsignature => ?_, fun path hpath u hu x hx signature hx' => ?_, ?_, ?_,
    fun input summary hsummary => ?_⟩
  · obtain ⟨hstandard, path, hpath, u, hu, x, hx, hresolved⟩ := exists_call_of_significant hsignature
    exact ⟨hstandard, path, hpath, u, hu, x, hx, (hmeans x signature).mpr hresolved⟩
  · exact declaredMethod_of_resolve hpath hu hx ((hmeans x signature).mp hx')
  · have htallies := analyze_eq_map w.files w.settings.standardPrefixes root sources
    rw [hfailed, show tallies = _ from htallies, List.filter_map, List.map_map]
    simp only [Function.comp_def, isSome_error_run_tallyFile, path_run_tallyFile, List.map_id']
  · have hkept : sources.filter (fun path => !stated.failed.contains path) =
        sources.filter fun path => (readUnit w.files path).isOk := by
      refine List.filter_congr fun path hpath => ?_
      rw [hfailed]
      simp [hpath]
    rw [hkept]
    exact facts_statedFacts_filter w names sources
  · obtain ⟨r, -, hsurvey, rfl⟩ := survey_of_build hsummary
    obtain ⟨path, dropped, hpath, -, hdropped, hv⟩ := survey_eq_surveyOf hsurvey
    exact ⟨path, dropped, r.survey, hpath, hdropped, hv, hsurvey, rfl, rfl⟩

/-- Two sources, of which the second is no Java. -/
theorem survey_states_significant_methods_malformed :
    let files := ((((Files.empty ["home"]).writeText "A.java" "class A { void a() { b(); } void b() {} }").1).writeText
      "C.java" "class").1
    let w : Workspace := ⟨default, files⟩
    let sources := ["A.java", "C.java"]
    let dropped : Share := ⟨0.0, by decide +kernel⟩
    let tallies := Resolution.analyze files w.settings.standardPrefixes "." sources
    let names := (process dropped tallies).counts.names
    w.settings.extraction.methods = true ∧ w.settings.extraction.onlyPublicMethods = false ∧
      (tallies.filter (·.error.isSome)).map FileTally.path = ["C.java"] ∧
      (w.statedFacts names sources).facts = (w.statedFacts names ["A.java"]).facts := by
  intro files w sources dropped tallies names
  obtain ⟨-, -, -, -, -, hfailed, hkept, -⟩ :=
    survey_states_significant_methods w dropped "." sources rfl rfl
  have hnames : (w.statedFacts names sources).failed = ["C.java"] := by decide +kernel
  rw [hnames] at hkept
  exact ⟨rfl, rfl, hfailed.symm.trans hnames, hkept.symm⟩

end Workspace

end StructureGraph
