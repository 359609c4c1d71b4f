import StructureGraph.Proofs.Graph.Saving
import StructureGraph.Proofs.Ingestion
import StructureGraph.Proofs.Input.SourceFiles
import StructureGraph.Proofs.Java.Snapshot
import StructureGraph.Proofs.Resolution.Scope
import StructureGraph.Proofs.Workspace.Survey

namespace StructureGraph.Workspace

open StructureGraph.Graph StructureGraph.Input
open Files (DifferAt Extends)
open Resolution

variable {w : Workspace} {files' : Files} {input : Location} {path n : String}

/-- The places at which a build may write. -/
def IsTarget (w : Workspace) : List String → Prop := StoredGraph.IsTarget w.files w.settings.store

private theorem isTarget_of_extends {hidden : List String → Prop} (h : Extends hidden w.files files') :
    IsTarget { w with files := files' } = w.IsTarget := by
  funext p
  simp only [IsTarget, StoredGraph.IsTarget, h.destination]

/-- Whatever is in the places at which a build may write, it is neither a source nor a file of rules. -/
structure KeepsApart (w : Workspace) (input : Location) : Prop where
  rules : ∀ p, w.IsTarget p → ¬IsRulesAt p
  sources : ∀ files', files'.IsProper → Extends w.IsTarget w.files files' → ∀ path exclusions,
    w.inputPath input = .ok path → w.settings.exclusions = .ok exclusions →
      SourcesSeen w.IsTarget files' path exclusions

private theorem inputPath_of_clone (hclone : files'.system.clone = w.files.system.clone)
    (input : Location) :
    inputPath { w with files := files' } input = w.inputPath input := by
  cases input with
  | path path => rfl
  | repository address => simp only [inputPath, hclone]

private theorem KeepsApart.of_extends (h : w.KeepsApart input)
    (hextends : Extends w.IsTarget w.files files')
    (hclone : files'.system.clone = w.files.system.clone) :
    KeepsApart { w with files := files' } input where
  rules := by
    rw [isTarget_of_extends hextends]
    exact h.rules
  sources := by
    rw [isTarget_of_extends hextends, inputPath_of_clone hclone]
    exact fun files'' hf'' h'' => h.sources files'' hf'' (hextends.trans h'')

/-- What an input keeps apart from is kept apart from by the path to which it leads. -/
theorem KeepsApart.of_inputPath (h : w.KeepsApart input) (hpath : w.inputPath input = .ok path) :
    w.KeepsApart (.path path) where
  rules := h.rules
  sources files' hf' h' path' exclusions heq := h.sources files' hf' h' path' exclusions (hpath.trans heq)

/-- Names under which no rules and no sources below a directory are found. -/
def IsFreeName (n : String) : Prop :=
  n ∉ [".ignore", ".gitignore", "exclude"] ∧ ∀ before, n ≠ before ++ ".java"

private theorem not_isRulesAt_of_isFreeName (hn : IsFreeName n) (parent : List String) :
    ¬IsRulesAt (parent ++ [n]) := by
  rintro ⟨rules, hmem, hrules⟩
  obtain ⟨before, hbefore⟩ := hrules
  refine hn.1 ?_
  have hlast := congrArg List.getLast? hbefore
  rw [List.getLast?_concat] at hlast
  simp only [List.mem_cons, List.not_mem_nil, or_false] at hmem
  rcases hmem with rfl | rfl | rfl <;> simp at hlast <;> simp [← hlast]

private theorem isFreeName_temporary (s : String) : IsFreeName (s ++ "." ++ "json.tmp") := by
  have hlast : ∀ {m : String}, s ++ "." ++ "json.tmp" = m → m.toList.getLast? = some 'p' := by
    rintro m rfl
    simp
  refine ⟨fun hmem => ?_, fun before hbefore => ?_⟩
  · simp only [List.mem_cons, List.not_mem_nil, or_false] at hmem
    rcases hmem with h | h | h <;> exact absurd (hlast h) (by decide)
  · have hjava := hlast hbefore
    simp at hjava

/-- A store whose name is free keeps apart from all sources below a directory. -/
theorem keepsApart_of_isFreeName (hpath : w.inputPath input = .ok path)
    (hinput : w.files.isDirectory path) (hname : Files.Path.fileName? w.settings.store = some n)
    (hn : IsFreeName n) : w.KeepsApart input := by
  obtain ⟨parent, hstore, htemporary⟩ := StoredGraph.destination_temporaryPath hname w.files
  have htarget : ∀ p, w.IsTarget p → ∃ m, IsFreeName m ∧ p = parent ++ [m] := by
    rintro p (rfl | rfl)
    · exact ⟨n, hn, hstore⟩
    · exact ⟨_, isFreeName_temporary _, htemporary⟩
  refine ⟨fun p hp => ?_, fun files' hf' h path' exclusions hpath' _ => ?_⟩
  · obtain ⟨m, hm, rfl⟩ := htarget p hp
    exact not_isRulesAt_of_isFreeName hm parent
  · obtain rfl := Except.ok.inj (hpath.symm.trans hpath')
    intro sources hsources file hfile hp
    obtain ⟨m, hm, hplace⟩ := htarget _ hp
    obtain ⟨parent', before, hjava⟩ :=
      destination_of_mem_sourceFiles hf' (h.isDirectory hinput) hsources hfile
    have hlast := (List.append_inj' (hplace.symm.trans hjava) rfl).2
    exact hm.2 before (List.singleton_inj.mp hlast)

/-- There is no snapshot, or one that can be opened. -/
structure IsOpenable (w : Workspace) : Prop where
  opened : ∃ s, w.openGraph = .ok s
  snapshot : ∀ b, w.files.Holds (w.files.destination w.settings.store) b →
    ∃ text g, b = text.toUTF8 ∧ Snapshot.ofText text = .ok g

private theorem isOpenable_of_bytes? {text : String} {g : PropertyGraph}
    (hb : w.files.bytes? w.settings.store = some text.toUTF8) (hg : Snapshot.ofText text = .ok g) :
    w.IsOpenable where
  opened := ⟨⟨g, some w.settings.store⟩, by
    rw [openGraph, StoredGraph.ofFile_of_text? (text?_of_bytes? hb) hg]
    rfl⟩
  snapshot b hholds := by
    obtain ⟨place, hplace, hthere⟩ := Files.bytes?_eq_some_iff.mp hb
    rw [Files.Holds, ← Files.eq_destination hplace, hthere] at hholds
    exact ⟨text, g, (Files.Entry.file.inj (Option.some.inj hholds)).symm, hg⟩

/-- Where there is nothing an empty graph is opened. -/
theorem openGraph_of_not_exists (h : w.files.exists w.settings.store = false) :
    w.openGraph = .ok ⟨.empty, some w.settings.store⟩ := by
  rw [openGraph, StoredGraph.ofFile, StoredGraph.load, h]
  rfl

private theorem isOpenable_of_not_exists (h : w.files.exists w.settings.store = false)
    (hnothing : w.files.root.descend? (w.files.destination w.settings.store) = none) :
    w.IsOpenable where
  opened := ⟨_, openGraph_of_not_exists h⟩
  snapshot b hb := by
    rw [Files.Holds, hnothing] at hb
    cases hb

/-- No type is looked up where a build writes. -/
theorem IsOpenable.noUnits (h : w.IsOpenable) : NoUnits w.IsTarget w.files := by
  intro directory name place hplace htarget
  have hstore : place = w.files.destination w.settings.store →
      loadUnit? w.files (typeFile directory name) = none := by
    intro heq
    by_contra hsome
    obtain ⟨u, hu⟩ := Option.ne_none_iff_exists'.mp hsome
    obtain ⟨text, htext, hunit⟩ := Option.bind_eq_some_iff.mp hu
    obtain ⟨b, hb, hdecoded⟩ := Option.bind_eq_some_iff.mp htext
    obtain ⟨place', hplace', hholds⟩ := Files.bytes?_eq_some_iff.mp hb
    obtain rfl := Option.some.inj (hplace'.symm.trans hplace)
    obtain ⟨text', g, rfl, hg⟩ := h.snapshot b (heq ▸ hholds)
    rw [fromUTF8?_toUTF8, Option.some.injEq] at hdecoded
    rw [← hdecoded, Java.CompilationUnit.ofText, Java.Syntax.parse?_of_ofText hg] at hunit
    cases hunit
  rcases htarget with heq | heq
  · exact hstore heq
  · cases hname : Files.Path.fileName? w.settings.store with
    | none =>
      refine hstore ?_
      simpa only [StoredGraph.temporaryPath, Files.Path.withExtension, hname] using heq
    | some n =>
      obtain ⟨parent, -, htemporary⟩ := StoredGraph.destination_temporaryPath hname w.files
      obtain ⟨parent', before, hjava⟩ := exists_of_place?_typeFile hplace
      rw [heq, htemporary] at hjava
      have hlast := (List.append_inj' hjava rfl).2
      exact ((isFreeName_temporary _).2 before (List.singleton_inj.mp hlast)).elim

variable {sources : List String} {source : String}

private theorem sources_of_exclusions {exclusions : List Glob} (h : w.settings.exclusions = .ok exclusions)
    (path : String) :
    w.sources path = (sourceFiles w.files path exclusions).mapError .input := by
  rw [Workspace.sources, h]
  rfl

private theorem exists_sourceFiles (h : w.sources path = .ok sources) :
    ∃ exclusions, w.settings.exclusions = .ok exclusions ∧
      sourceFiles w.files path exclusions = .ok sources := by
  obtain ⟨exclusions, hexclusions, hsources⟩ := exists_of_bind_eq_ok h
  exact ⟨exclusions, eq_ok_of_mapError_eq_ok hexclusions, eq_ok_of_mapError_eq_ok hsources⟩

private theorem exists_of_sources (h : w.sources path = .ok sources) : w.files.exists path := by
  obtain ⟨exclusions, -, hsources⟩ := exists_sourceFiles h
  by_contra hmissing
  rw [sourceFiles_of_not_exists (by simpa using hmissing)] at hsources
  cases hsources

private theorem survey_of_inputPath (h : w.inputPath input = .ok path) :
    w.survey input = w.survey (.path path) := by
  rw [survey, h]
  rfl

private theorem survey_of_inputPath_fails {e : WorkspaceError} (h : w.inputPath input = .error e) :
    w.survey input = .error e := by
  rw [survey, h]
  rfl

private theorem survey_of_error {e : WorkspaceError} (h : w.sources path = .error e) :
    w.survey (.path path) = .error e := by
  show (w.sources path >>= fun sources => _) = _
  rw [h]
  rfl

private theorem survey_of_not_exists (h : w.files.exists path = false) : w.survey (.path path) =
    (w.settings.exclusions.mapError .settings).bind fun _ => .error (.input (.missing path)) := by
  cases hexclusions : w.settings.exclusions with
  | error e =>
    refine survey_of_error ?_
    rw [Workspace.sources, hexclusions]
    rfl
  | ok exclusions =>
    refine survey_of_error ?_
    rw [sources_of_exclusions hexclusions, sourceFiles_of_not_exists h]
    rfl

private theorem survey_of_sources (h : w.sources path = .ok sources) :
    w.survey (.path path) = (w.settings.share.mapError .settings).map fun dropped =>
      w.surveyOf dropped (sourceRoot w.files path) sources := by
  show (w.sources path >>= fun sources => _) = _
  rw [h]
  show (w.processFiles path sources >>= fun significant => _) = _
  rw [processFiles]
  cases w.settings.share <;> rfl

section

variable (hf : w.files.IsProper) (hapart : w.KeepsApart (.path path))

include hf hapart

private theorem sourcesSeen {exclusions : List Glob} (h : w.settings.exclusions = .ok exclusions) :
    SourcesSeen w.IsTarget w.files path exclusions :=
  hapart.sources w.files hf (.refl _ _) path exclusions rfl h

/-- Each source is a file that no build writes. -/
theorem exists_place_of_mem_sources (hsources : w.sources path = .ok sources)
    (hsource : source ∈ sources) : ∃ q, w.files.place? source = some q ∧ ¬w.IsTarget q := by
  obtain ⟨exclusions, hexclusions, hfiles⟩ := exists_sourceFiles hsources
  obtain ⟨q, b, hplace, -⟩ := holds_of_mem_sourceFiles hf hfiles hsource
  refine ⟨q, hplace, ?_⟩
  rw [Files.eq_destination hplace]
  exact sourcesSeen hf hapart hexclusions sources hfiles source hsource

variable (h : Extends w.IsTarget w.files files')

include h

private theorem readUnit_of_extends (hsources : w.sources path = .ok sources) (hsource : source ∈ sources) :
    readUnit files' source = readUnit w.files source := by
  obtain ⟨q, hplace, hseen⟩ := exists_place_of_mem_sources hf hapart hsources hsource
  rw [readUnit, readUnit, h.text? hplace hseen]

private theorem statedFacts_of_extends (hsources : w.sources path = .ok sources)
    (significant : List String) :
    statedFacts { w with files := files' } significant sources = w.statedFacts significant sources := by
  have hunits : (sources.map fun source => (source, readUnit files' source)) =
      sources.map fun source => (source, readUnit w.files source) :=
    List.map_congr_left fun source hsource => by
      rw [readUnit_of_extends hf hapart h hsources hsource]
  simp only [statedFacts, hunits]

variable (hf' : files'.IsProper) (hexists : w.files.exists path)

include hf' hexists

private theorem sources_of_extends :
    Workspace.sources { w with files := files' } path = w.sources path := by
  cases hexclusions : w.settings.exclusions with
  | error e => rw [Workspace.sources, Workspace.sources, hexclusions]; rfl
  | ok exclusions =>
    rw [sources_of_exclusions hexclusions, @sources_of_exclusions { w with files := files' } _ hexclusions,
      sourceFiles_congr h hf hf' hapart.rules (sourcesSeen hf hapart hexclusions)
        (hapart.sources files' hf' h path exclusions rfl hexclusions) hexists]

variable (hopen : w.IsOpenable) (hopen' : IsOpenable { w with files := files' })

include hopen hopen'

private theorem analyze_of_extends (hsources : w.sources path = .ok sources) (prefixes : List String) :
    Resolution.analyze files' prefixes (sourceRoot files' path) sources =
      Resolution.analyze w.files prefixes (sourceRoot w.files path) sources := by
  have hnone' : NoUnits w.IsTarget files' := by
    rw [← isTarget_of_extends h]
    exact hopen'.noUnits
  obtain ⟨exclusions, hexclusions, -⟩ := exists_sourceFiles hsources
  obtain ⟨place, hplace, hroot⟩ := exists_place_sourceRoot hf hexists
  have hplaces : ∀ source ∈ sources, (w.files.place? source).isSome := fun source hsource => by
    obtain ⟨q, hq, -⟩ := exists_place_of_mem_sources hf hapart hsources hsource
    rw [hq]
    rfl
  rw [sourceRoot_congr h (sourcesSeen hf hapart hexclusions) hexists, analyze_eq_map, analyze_eq_map,
    findType?_scope_of_extends h hf hf' hopen.noUnits hnone' hplace hroot hplaces]
  refine List.map_congr_left fun source hsource => ?_
  rw [run_tallyFile, run_tallyFile, readUnit_of_extends hf hapart h hsources hsource]

/-- A survey does not see what is in the places at which a build may write. -/
theorem survey_of_extends :
    survey { w with files := files' } (.path path) = w.survey (.path path) := by
  have hsame := sources_of_extends hf hapart h hf' hexists
  cases hsources : w.sources path with
  | error e => rw [survey_of_error hsources, survey_of_error (hsame.trans hsources)]
  | ok sources =>
    have hanalysis := analyze_of_extends hf hapart h hf' hexists hopen hopen' hsources
    have hfacts := statedFacts_of_extends hf hapart h hsources
    rw [survey_of_sources hsources, survey_of_sources (hsame.trans hsources)]
    simp only [surveyOf, hanalysis, hfacts]

end

/-- The files of a workspace with another snapshot among them, or none. Where the input is there, the
directory of the snapshot may be there in these alone. -/
inductive IsVariant (w : Workspace) (input : Location) (files' : Files) : Prop
  | content (h : DifferAt (w.files.destination w.settings.store) w.files files')
  | directory {made : Files} (hinput : ∀ path, w.inputPath input = .ok path → w.files.exists path)
    (hmade : StoredGraph.createParent w.files w.settings.store = (made, true))
    (h : DifferAt (w.files.destination w.settings.store) made files')

namespace IsVariant

variable (h : w.IsVariant input files')

include h

theorem «extends» : Extends w.IsTarget w.files files' := by
  cases h with
  | content h => exact h.extends.mono fun _ => .inl
  | directory _ hmade h =>
    exact ((StoredGraph.extends_createParent hmade).mono nofun).trans (h.extends.mono fun _ => .inl)

private theorem save_eq (hsystem : files'.system = w.files.system) (g : PropertyGraph) :
    (StoredGraph.save g files' w.settings.store).2 = (StoredGraph.save g w.files w.settings.store).2 := by
  cases h with
  | content h => exact StoredGraph.save_eq_of_differAt g h hsystem
  | @directory made _ hmade h =>
    have hsame : made.SameConditions files' :=
      ⟨h.toSameDirectories, hsystem.trans (StoredGraph.system_createParent hmade).symm⟩
    exact StoredGraph.save_eq_of_createParent g hmade hsame

variable (hclone : files'.system.clone = w.files.system.clone) (hf : w.files.IsProper)
  (hf' : files'.IsProper) (hapart : w.KeepsApart input) (hopen : w.IsOpenable)
  (hopen' : IsOpenable { w with files := files' })

include hclone hf hf' hapart hopen hopen'

private theorem survey_eq : survey { w with files := files' } input = w.survey input := by
  have hextends := h.extends
  have hinputPath := inputPath_of_clone hclone input
  cases hpath : w.inputPath input with
  | error e =>
    rw [survey_of_inputPath_fails hpath, survey_of_inputPath_fails (hinputPath.trans hpath)]
  | ok path =>
    rw [survey_of_inputPath hpath, survey_of_inputPath (hinputPath.trans hpath)]
    have hapart := hapart.of_inputPath hpath
    by_cases hexists : w.files.exists path
    · exact survey_of_extends hf hapart hextends hf' hexists hopen hopen'
    · cases h with
      | directory hinput => exact absurd (hinput path hpath) hexists
      | content h =>
        by_cases hexists' : files'.exists path
        · have hback : Extends (IsTarget { w with files := files' }) files' w.files := by
            rw [isTarget_of_extends hextends]
            exact h.symm.extends.mono fun _ => .inl
          exact (survey_of_extends hf' (hapart.of_extends hextends hclone) hback hf hexists' hopen'
            hopen).symm
        · have hmissing := @survey_of_not_exists w _ (by simpa using hexists)
          have hmissing' := @survey_of_not_exists { w with files := files' } _ (by simpa using hexists')
          exact hmissing'.trans hmissing.symm

end IsVariant

private theorem path_of_openGraph {s : StoredGraph} (h : w.openGraph = .ok s) :
    s.path = some w.settings.store := by
  obtain ⟨g, -, rfl⟩ := StoredGraph.ofFile_eq_ok_iff.mp (eq_ok_of_mapError_eq_ok h)
  rfl

/-- To persist a graph is to save it in the place of the one that was opened. -/
theorem persist_eq {s : StoredGraph} (h : w.openGraph = .ok s) (g : PropertyGraph) :
    w.persist s g = ((StoredGraph.save g w.files w.settings.store).1,
      if (StoredGraph.save g w.files w.settings.store).2 then .ok ()
        else .error (.store .persisting .snapshotFile)) := by
  simp only [persist, StoredGraph.persist, path_of_openGraph h]
  split <;> rfl

/-- What is ready to be written was made of the facts of the sources, and of nothing else. -/
structure Rebuilt.IsMade (w : Workspace) (input : Location) (r : Rebuilt) : Prop where
  survey : w.survey input = .ok r.survey
  ingest : Store.memory.ingestAll w.settings.keying .bestEffort .empty r.survey.stated.facts =
    (r.graph, .ok r.report)
  ingested : Ingested w.settings.keying r.survey.stated.facts .empty r.graph r.report

namespace Rebuilt.IsMade

variable {r r' : Rebuilt}

private theorem reachable (h : r.IsMade w input) : Reachable r.graph := by
  have hall := reachable_empty.ingestAll w.settings.keying .bestEffort r.survey.stated.facts
  rwa [h.ingest] at hall

/-- The same survey makes the same graph, and is summed up alike. -/
theorem unique (h : r.IsMade w input) (h' : r'.IsMade { w with files := files' } input)
    (hsurvey : Workspace.survey { w with files := files' } input = w.survey input) :
    r'.graph = r.graph ∧ r'.summary = r.summary := by
  have hsame : r'.survey = r.survey := by
    have heq := h'.survey.symm.trans (hsurvey.trans h.survey)
    exact Except.ok.inj heq
  have hmade := h'.ingest
  rw [hsame, show Workspace.settings { w with files := files' } = w.settings from rfl, h.ingest,
    Prod.mk.injEq] at hmade
  obtain ⟨hgraph, hreport⟩ := hmade
  refine ⟨hgraph.symm, ?_⟩
  rw [summary, summary, hsame, ← hgraph, ← Except.ok.inj hreport]

end Rebuilt.IsMade

private theorem exists_rebuild {v : Survey} {s : StoredGraph} (hsurvey : w.survey input = .ok v)
    (hopened : w.openGraph = .ok s) :
    ∃ r : Rebuilt, r.IsMade w input ∧ r.opened = s ∧ w.rebuild input = .ok r := by
  obtain ⟨g, report, hingest, hingested⟩ :=
    ingestAll_effect PropertyGraph.integrity_empty w.settings.keying v.stated.facts
  refine ⟨⟨v, s, g, report⟩, ⟨hsurvey, hingest, hingested⟩, rfl, ?_⟩
  have hresult : w.ingest .empty v.stated.facts = (g, .ok report) := by
    rw [ingest, hingest]
    rfl
  have hclear : clear s.graph = .ok .empty := rfl
  simp only [rebuild, hsurvey, hopened, hclear, bind, Except.bind, hresult]
  rfl

private theorem of_ite_eq_ok {done : Bool} {summary summary' : BuildSummary} {e : WorkspaceError}
    (h : (if done then .ok summary else .error e : Except WorkspaceError BuildSummary) = .ok summary') :
    done = true ∧ summary = summary' := by
  cases done with
  | true => exact ⟨rfl, Except.ok.inj h⟩
  | false => cases h

/-- A build whose sources can be surveyed and whose graph can be opened is a save. -/
theorem exists_build {v : Survey} {s : StoredGraph} (hsurvey : w.survey input = .ok v)
    (hopened : w.openGraph = .ok s) : ∃ r : Rebuilt, r.IsMade w input ∧
      w.build input = ((StoredGraph.save r.graph w.files w.settings.store).1,
        if (StoredGraph.save r.graph w.files w.settings.store).2 then .ok r.summary
          else .error (.store .persisting .snapshotFile)) := by
  obtain ⟨r, hmade, rfl, hrebuilt⟩ := exists_rebuild hsurvey hopened
  refine ⟨r, hmade, ?_⟩
  simp only [build, hrebuilt, persist_eq hopened]
  split <;> rfl

private theorem build_of_error {e : WorkspaceError} (h : w.rebuild input = .error e) :
    w.build input = (w.files, .error e) := by
  simp only [build, h]

private theorem build_of_survey_fails {e : WorkspaceError} (h : w.survey input = .error e) :
    w.build input = (w.files, .error e) := by
  refine build_of_error ?_
  rw [rebuild, h]
  rfl

/-- How far a build comes. -/
inductive Built (w : Workspace) (input : Location) :
    Files → Except WorkspaceError BuildSummary → Prop
  | unsurveyed {e : WorkspaceError} : w.survey input = .error e → Built w input w.files (.error e)
  | unopened {e : WorkspaceError} : w.openGraph = .error e → Built w input w.files (.error e)
  | unsaved {r : Rebuilt} {files' : Files} : r.IsMade w input →
    StoredGraph.save r.graph w.files w.settings.store = (files', false) →
    Built w input files' (.error (.store .persisting .snapshotFile))
  | saved {r : Rebuilt} {files' : Files} : r.IsMade w input →
    StoredGraph.save r.graph w.files w.settings.store = (files', true) →
    Built w input files' (.ok r.summary)

private theorem built_of_build (w : Workspace) (input : Location) :
    Built w input (w.build input).1 (w.build input).2 := by
  cases hsurvey : w.survey input with
  | error e =>
    rw [build_of_survey_fails hsurvey]
    exact .unsurveyed hsurvey
  | ok v =>
    cases hopened : w.openGraph with
    | error e =>
      rw [build_of_error (show w.rebuild input = .error e by rw [rebuild, hsurvey, hopened]; rfl)]
      exact .unopened hopened
    | ok s =>
      obtain ⟨r, hmade, hbuild⟩ := exists_build hsurvey hopened
      rw [hbuild]
      cases hsaved : (StoredGraph.save r.graph w.files w.settings.store).2 with
      | true => exact .saved hmade (Prod.ext rfl hsaved)
      | false => exact .unsaved hmade (Prod.ext rfl hsaved)

private theorem saved_of_build {summary : BuildSummary} (h : w.build input = (files', .ok summary)) :
    ∃ r : Rebuilt, r.IsMade w input ∧
      StoredGraph.save r.graph w.files w.settings.store = (files', true) ∧ summary = r.summary := by
  have hbuilt := built_of_build w input
  rw [h] at hbuilt
  cases hbuilt with
  | saved hmade hsave => exact ⟨_, hmade, hsave, rfl⟩

/-- What a task that fails does to files: it may make directories and leave a temporary file. -/
structure IsKept (w : Workspace) (files' : Files) : Prop where
  /-- The file of the graph has the content that it had, and is not there if it was not. -/
  snapshot : ∀ b, files'.Holds (w.files.destination w.settings.store) b ↔
    w.files.Holds (w.files.destination w.settings.store) b
  bytes? : ∀ b, w.files.bytes? w.settings.store = some b → files'.bytes? w.settings.store = some b
  others : Extends (· = w.files.destination (StoredGraph.temporaryPath w.settings.store)) w.files files'

theorem IsKept.refl (w : Workspace) : w.IsKept w.files :=
  ⟨fun _ => Iff.rfl, fun _ h => h, .refl _ _⟩

private theorem isKept_of_save {g : PropertyGraph}
    (h : StoredGraph.save g w.files w.settings.store = (files', false)) : w.IsKept files' := by
  have hextends := StoredGraph.extends_of_save_fails h
  refine ⟨fun b => hextends.holds _ b (fun hp => hp.2 rfl), fun b hb => ?_, hextends.mono fun _ => And.left⟩
  obtain ⟨place, hplace, -⟩ := Files.bytes?_eq_some_iff.mp hb
  rw [hextends.bytes? hplace (fun hp => hp.2 (Files.eq_destination hplace)), hb]

/-- Nothing is written before all is ready to be written. -/
theorem isKept_of_build {e : WorkspaceError} (h : w.build input = (files', .error e)) :
    w.IsKept files' ∧ ((∀ cause, e ≠ .store .persisting cause) → files' = w.files) := by
  have hbuilt := built_of_build w input
  rw [h] at hbuilt
  cases hbuilt with
  | unsurveyed => exact ⟨.refl w, fun _ => rfl⟩
  | unopened => exact ⟨.refl w, fun _ => rfl⟩
  | unsaved _ hsave => exact ⟨isKept_of_save hsave, fun hne => (hne _ rfl).elim⟩

private theorem isKept_of_reset {e : WorkspaceError} (h : w.reset = (files', .error e)) :
    w.IsKept files' ∧ ((∀ cause, e ≠ .store .persisting cause) → files' = w.files) := by
  rw [reset] at h
  split at h
  · obtain ⟨rfl, -⟩ := Prod.mk.inj h
    exact ⟨.refl w, fun _ => rfl⟩
  · rename_i s hopened
    have hclear : clear s.graph = .ok .empty := rfl
    simp only [hclear, persist_eq hopened, Prod.mk.injEq] at h
    obtain ⟨rfl, herror⟩ := h
    split at herror
    · cases herror
    · rename_i hunsaved
      refine ⟨isKept_of_save (Prod.ext rfl (by simpa using hunsaved)), fun hne => ?_⟩
      exact (hne _ (Except.error.inj herror).symm).elim

/-- What a build leaves behind can be opened. -/
theorem isOpenable_of_save {g : PropertyGraph} (hg : Reachable g)
    (h : StoredGraph.save g w.files w.settings.store = (files', true)) (system : Files.System) :
    IsOpenable { w with files := { files' with system } } := by
  have hbytes := StoredGraph.save_bytes? h
  have hbytes' : Files.bytes? { files' with system } w.settings.store =
      some (Snapshot.toText g).toUTF8 := hbytes
  exact isOpenable_of_bytes? hbytes' hg.ofText_toText

section

variable (hf : w.files.IsProper) (hapart : w.KeepsApart input) (hopen : w.IsOpenable)

include hf hapart hopen

/-- What was stored before makes no difference to a build, and what fails makes none as long as all goes
well. -/
theorem build_of_isVariant (h : w.IsVariant input files')
    (hclone : files'.system.clone = w.files.system.clone) (hf' : files'.IsProper)
    (hopen' : IsOpenable { w with files := files' }) :
    (files'.system = w.files.system →
      (build { w with files := files' } input).2 = (w.build input).2) ∧
    ∀ summary summary', (w.build input).2 = .ok summary →
      (build { w with files := files' } input).2 = .ok summary' → summary' = summary ∧
        (build { w with files := files' } input).1.bytes? w.settings.store =
          (w.build input).1.bytes? w.settings.store := by
  have hsame := h.survey_eq hclone hf hf' hapart hopen hopen'
  cases hsurvey : w.survey input with
  | error e =>
    rw [build_of_survey_fails hsurvey, build_of_survey_fails (hsame.trans hsurvey)]
    exact ⟨fun _ => rfl, nofun⟩
  | ok v =>
    obtain ⟨s, hopened⟩ := hopen.opened
    obtain ⟨s', hopened'⟩ := hopen'.opened
    obtain ⟨r, hmade, hbuild⟩ := exists_build hsurvey hopened
    obtain ⟨r', hmade', hbuild'⟩ := exists_build (hsame.trans hsurvey) hopened'
    obtain ⟨hgraph, hsummary⟩ := hmade.unique hmade' hsame
    rw [hbuild, hbuild', hgraph, hsummary]
    refine ⟨fun hsystem => by rw [h.save_eq hsystem], fun summary summary' hok hok' => ?_⟩
    obtain ⟨hsaved, rfl⟩ := of_ite_eq_ok hok
    obtain ⟨hsaved', rfl⟩ := of_ite_eq_ok hok'
    refine ⟨rfl, ?_⟩
    rw [StoredGraph.save_bytes? (Prod.ext rfl hsaved), StoredGraph.save_bytes? (Prod.ext rfl hsaved')]

/-- A second build is surveyed like the first one. -/
theorem survey_again {summary : BuildSummary} (h : w.build input = (files', .ok summary))
    {system : Files.System} (hclone : system.clone = w.files.system.clone) :
    survey { w with files := { files' with system } } input = w.survey input := by
  obtain ⟨r, hmade, hsave, rfl⟩ := saved_of_build h
  have hextends := (StoredGraph.extends_save hsave).withSystem system
  have hproper := (StoredGraph.isProper_save hf hsave).withSystem system
  obtain ⟨path, -, hpath, hsources, -⟩ := survey_eq_surveyOf hmade.survey
  have hpath' : inputPath { w with files := { files' with system } } input = .ok path :=
    (inputPath_of_clone hclone input).trans hpath
  rw [survey_of_inputPath hpath, survey_of_inputPath hpath']
  exact survey_of_extends hf (hapart.of_inputPath hpath) hextends hproper (exists_of_sources hsources)
    hopen (isOpenable_of_save hmade.reachable hsave system)

/-- A second build writes the snapshot as it is, if it goes well, and goes well under the same system. -/
theorem build_again {summary : BuildSummary} (h : w.build input = (files', .ok summary))
    {system : Files.System} (hclone : system.clone = w.files.system.clone) :
    let again := build { w with files := { files' with system } } input
    (system = w.files.system → again.2 = .ok summary) ∧
      ∀ summary', again.2 = .ok summary' →
        summary' = summary ∧ again.1.bytes? w.settings.store = files'.bytes? w.settings.store := by
  intro again
  have hsame := survey_again hf hapart hopen h hclone
  obtain ⟨r, hmade, hsave, rfl⟩ := saved_of_build h
  have hopen' := isOpenable_of_save hmade.reachable hsave system
  obtain ⟨s', hopened'⟩ := hopen'.opened
  obtain ⟨r', hmade', hbuild'⟩ := exists_build (hsame.trans hmade.survey) hopened'
  obtain ⟨hgraph, hsummary⟩ := hmade.unique hmade' hsame
  rw [hgraph, hsummary] at hbuild'
  have hagain : again = _ := hbuild'
  rw [hagain]
  refine ⟨fun hsystem => ?_, fun summary' hok => ?_⟩
  · have hfiles : ({ files' with system } : Files) = files' := by
      rw [hsystem, ← StoredGraph.system_save hsave]
    rw [hfiles]
    exact if_pos (StoredGraph.save_again hsave)
  · obtain ⟨hsaved, rfl⟩ := of_ite_eq_ok hok
    exact ⟨rfl, by rw [StoredGraph.save_bytes? (Prod.ext rfl hsaved), StoredGraph.save_bytes? hsave]⟩

end

/-- Builds and resets that fail keep the snapshot, at whatever call the system fails and whatever it leaves
of a file that was being written, and change no file at all unless it is the writing that fails. A build
that goes well leaves the graph that its facts make out of nothing, which is what its summary counts.
Neither what it answers nor what it leaves depends on an earlier snapshot, and to build again from the same
sources writes the same. -/
theorem build_replaces_or_keeps (w : Workspace) (input : Location) :
    let store := w.settings.store
    let withFiles (files : Files) : Workspace := { w with files := files }
    (∀ files' e, w.build input = (files', .error e) →
      w.IsKept files' ∧ ((∀ cause, e ≠ .store .persisting cause) → files' = w.files)) ∧
    (∀ files' e, w.reset = (files', .error e) →
      w.IsKept files' ∧ ((∀ cause, e ≠ .store .persisting cause) → files' = w.files)) ∧
    (∀ files' summary, w.build input = (files', .ok summary) → ∃ v g report,
      w.survey input = .ok v ∧
      Store.memory.ingestAll w.settings.keying .bestEffort .empty v.stated.facts = (g, .ok report) ∧
      StoredGraph.ofFile files' store = .ok ⟨g, some store⟩ ∧
      files'.bytes? store = some (Snapshot.toText g).toUTF8 ∧
      summary.graph = g.counts ∧ summary.created = report.created ∧
      summary.graph.nodes = summary.created.nodesCreated ∧
      summary.graph.relationships = summary.created.relationshipsCreated ∧
      summary.facts = v.stated.facts.length ∧
      summary.facts = report.factsApplied + summary.ingestFailures) ∧
    (w.files.IsProper → w.KeepsApart input → w.IsOpenable →
      (∀ files₂, w.IsVariant input files₂ → files₂.system.clone = w.files.system.clone →
        files₂.IsProper → (withFiles files₂).IsOpenable →
        (files₂.system = w.files.system → ((withFiles files₂).build input).2 = (w.build input).2) ∧
        ∀ summary summary₂, (w.build input).2 = .ok summary →
          ((withFiles files₂).build input).2 = .ok summary₂ → summary₂ = summary ∧
            ((withFiles files₂).build input).1.bytes? store = (w.build input).1.bytes? store) ∧
      ∀ files' summary system, w.build input = (files', .ok summary) →
        system.clone = w.files.system.clone →
        let again := (withFiles { files' with system }).build input
        (system = w.files.system → again.2 = .ok summary) ∧
        ∀ summary', again.2 = .ok summary' →
          summary' = summary ∧ again.1.bytes? store = files'.bytes? store) := by
  intro store withFiles
  refine ⟨fun files' e => isKept_of_build, fun files' e => isKept_of_reset,
    fun files' summary h => ?_, fun hf hapart hopen => ⟨fun files₂ h hclone hf' hopen' =>
      build_of_isVariant hf hapart hopen h hclone hf' hopen', fun files' summary system h hclone =>
      build_again hf hapart hopen h hclone⟩⟩
  obtain ⟨r, hmade, hsave, rfl⟩ := saved_of_build h
  have hbytes := StoredGraph.save_bytes? hsave
  have hnodes := hmade.ingested.nodes_created
  have hrelationships := hmade.ingested.relationships_created
  refine ⟨r.survey, r.graph, r.report, hmade.survey, hmade.ingest,
    StoredGraph.ofFile_of_bytes? hmade.reachable hbytes, hbytes, rfl, rfl, ?_, ?_, rfl, ?_⟩
  · exact hnodes.trans (Nat.zero_add _)
  · exact hrelationships.trans (Nat.zero_add _)
  · exact hmade.ingested.facts_applied.symm

/-- A build where nothing was stored, one where another graph was, and a reset whose writing stops at the
first byte. -/
theorem build_replaces_or_keeps_other_graph :
    let files := ((Files.empty ["home"]).writeText "A.java" "class A { void a() {} }").1
    let w : Workspace := ⟨default, files⟩
    let made := (StoredGraph.createParent files w.settings.store).1
    let files₂ := (made.writeText w.settings.store "[1,[[[\"Class\",\"B\"]]],[]]").1
    let w₂ : Workspace := ⟨default, files₂⟩
    let system := { Files.System.reliable with writeFault? := fun _ _ => some "\x7b".toUTF8 }
    let w₃ : Workspace := ⟨default, { files₂ with system }⟩
    let temporary := StoredGraph.temporaryPath w.settings.store
    (w.files.IsProper ∧ w.KeepsApart (.path ".") ∧ w.IsOpenable ∧ w.IsVariant (.path ".") files₂ ∧
      w₂.files.IsProper ∧ w₂.IsOpenable) ∧
    (∃ summary, (w.build (.path ".")).2 = .ok summary ∧ (w₂.build (.path ".")).2 = .ok summary ∧
      (w₂.build (.path ".")).1.bytes? w.settings.store =
        (w.build (.path ".")).1.bytes? w.settings.store) ∧
    ∃ files' e, w₃.reset = (files', .error e) ∧ w₃.IsKept files' ∧
      files'.bytes? temporary = some "\x7b".toUTF8 := by
  intro files w made files₂ w₂ system w₃ temporary
  have hf : files.IsProper := ⟨by decide +kernel, by decide +kernel⟩
  have hf₂ : files₂.IsProper := ⟨by decide +kernel, by decide +kernel⟩
  have hname : IsFreeName "graph.json" := ⟨by decide, fun before h => by
    have hlast := congrArg (fun s : String => s.toList.getLast?) h
    simp at hlast⟩
  have hapart : w.KeepsApart (.path ".") :=
    keepsApart_of_isFreeName rfl (by decide +kernel) (by decide +kernel) hname
  have hmissing : files.exists w.settings.store = false := by decide +kernel
  have hopen : w.IsOpenable := isOpenable_of_not_exists hmissing (by decide +kernel)
  have hmade : StoredGraph.createParent files w.settings.store = (made, true) :=
    Prod.ext rfl (by decide +kernel)
  have hwritten : made.writeText w.settings.store "[1,[[[\"Class\",\"B\"]]],[]]" = (files₂, true) :=
    Prod.ext rfl (by decide +kernel)
  have hload : (Snapshot.ofText "[1,[[[\"Class\",\"B\"]]],[]]") =
      .ok ⟨[⟨.ofClass "B", .empty⟩], [], ⟨[(.ofClass "B", 0)]⟩⟩ := by decide +kernel
  have hopen₂ : w₂.IsOpenable := isOpenable_of_bytes? (Files.writeBytes_bytes? hwritten) hload
  have hvariant : w.IsVariant (.path ".") files₂ := by
    refine .directory (fun path hpath => ?_) hmade ?_
    · rw [← Except.ok.inj hpath]
      decide +kernel
    · have hdiffer := Files.DifferAt.of_writeBytes hwritten
      rwa [(StoredGraph.extends_createParent hmade).destination] at hdiffer
  obtain ⟨sources, hsources⟩ : ∃ sources, w.sources "." = .ok sources := by
    obtain ⟨es, hes⟩ : ∃ es, files.root.descend? ["home"] = some (.directory es) := ⟨_, rfl⟩
    have hplace : files.place? "." = some ["home"] := by decide +kernel
    rw [sources_of_exclusions (show w.settings.exclusions = .ok [] from rfl),
      sourceFiles_directory hplace hes]
    exact ⟨_, rfl⟩
  have hshare : w.settings.share = .ok ⟨0.5, by decide +kernel⟩ := by
    rw [Settings.share, Share.ofFloat?, dif_pos (by decide +kernel)]
    rfl
  have hsurvey := survey_of_sources hsources
  rw [hshare] at hsurvey
  obtain ⟨r, -, hbuild⟩ := exists_build hsurvey (openGraph_of_not_exists hmissing)
  have hwrites : ∀ g g', StoredGraph.WritesLike files g g' := fun _ _ _ _ => rfl
  have hsaves : (StoredGraph.save r.graph files w.settings.store).2 = true :=
    (StoredGraph.save_eq_of_graph files w.settings.store (hwrites .empty _) (hwrites _ .empty)).trans
      (by decide +kernel)
  have hok : (w.build (.path ".")).2 = .ok r.summary := by rw [hbuild, if_pos hsaves]
  obtain ⟨-, -, -, hlast⟩ := build_replaces_or_keeps w (.path ".")
  obtain ⟨hvariants, -⟩ := hlast hf hapart hopen
  have hsystem : files₂.system = files.system :=
    (Files.sameConditions_writeBytes hwritten).system.trans (StoredGraph.system_createParent hmade)
  obtain ⟨hsame, hbytes⟩ := hvariants files₂ hvariant (by rw [hsystem]) hf₂ hopen₂
  have hok₂ : (w₂.build (.path ".")).2 = .ok r.summary := (hsame hsystem).trans hok
  obtain ⟨files', e, hreset⟩ : ∃ files' e, w₃.reset = (files', .error e) := by
    have hfails : w₃.reset.2.isOk = false := by decide +kernel
    cases hreset : w₃.reset with
    | mk files' result =>
      cases result with
      | error e => exact ⟨files', e, rfl⟩
      | ok a => simp [hreset, Except.isOk, Except.toBool] at hfails
  have htorn : w₃.reset.1.bytes? temporary = some "\x7b".toUTF8 := by decide +kernel
  rw [hreset] at htorn
  obtain ⟨-, hkeeps, -⟩ := build_replaces_or_keeps w₃ (.path ".")
  exact ⟨⟨hf, hapart, hopen, hvariant, hf₂, hopen₂⟩,
    ⟨r.summary, hok, hok₂, (hbytes _ _ hok hok₂).2⟩, files', e, hreset, (hkeeps files' e hreset).1, htorn⟩

end StructureGraph.Workspace
