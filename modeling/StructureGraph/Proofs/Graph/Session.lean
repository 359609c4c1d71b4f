import StructureGraph.Graph.File
import StructureGraph.Graph.Store
import StructureGraph.Proofs.Files.Directories
import StructureGraph.Proofs.Files.Path
import StructureGraph.Proofs.Graph.Snapshot

namespace StructureGraph.Graph

open PropertyGraph

variable {files files' : Files} {place : List String} {b : ByteArray} {path : String}
  {g : PropertyGraph}

theorem fromUTF8?_toUTF8 (s : String) : String.fromUTF8? s.toUTF8 = some s := by
  have hvalid : s.toUTF8.IsValidUTF8 := s.isValidUTF8
  rw [String.fromUTF8?, dif_pos hvalid]
  rfl

/-- Text that was written can be read. -/
theorem text?_of_bytes? {text : String} (h : files.bytes? path = some text.toUTF8) :
    files.text? path = some text := by
  rw [Files.text?, h]
  exact fromUTF8?_toUTF8 text

/-- A text that was read is what the bytes of the file spell. -/
private theorem bytes?_of_text? {text : String} (h : files.text? path = some text) :
    files.bytes? path = some text.toUTF8 := by
  obtain ⟨b, hb, htext⟩ := Option.bind_eq_some_iff.mp h
  rw [String.fromUTF8?] at htext
  split at htext
  · rw [hb, ← Option.some.inj htext]
    rfl
  · cases htext

theorem text?_of_writeText {text : String} (h : files.writeText path text = (files', true)) :
    files'.text? path = some text :=
  text?_of_bytes? (Files.writeBytes_bytes? h)

namespace StoredGraph

/-- A store that has just been made and has no file. -/
def new : StoredGraph := ⟨.empty, none⟩

/-- The directory of a file is made by steps that do not depend on the files. -/
theorem exists_steps_createParent (path : String) :
    ∃ ss, (∀ n, .name n ∈ ss → Files.Path.IsName n) ∧
      ∀ files, createParent files path = files.makeSteps files.workingDirectory ss := by
  unfold createParent
  split
  · exact ⟨[], nofun, fun _ => rfl⟩
  · exact ⟨[], nofun, fun _ => rfl⟩
  · exact ⟨_, fun _ => Files.Path.isName_of_mem_steps, fun _ => rfl⟩

/-- How far a save comes. -/
inductive Saved (g : PropertyGraph) (f : Files) (path : String) : Files → Bool → Prop
  | noDirectory {f' : Files} : createParent f path = (f', false) → Saved g f path f' false
  | unwritten {f₁ f' : Files} : createParent f path = (f₁, true) →
    writeTemporary g f₁ path = (f', false) → Saved g f path f' false
  | written {f₁ f₂ f' : Files} {done : Bool} : createParent f path = (f₁, true) →
    writeTemporary g f₁ path = (f₂, true) → f₂.moveFile (temporaryPath path) path = (f', done) →
    Saved g f path f' done

theorem saved_of_save {done : Bool} (h : save g files path = (files', done)) :
    Saved g files path files' done := by
  unfold save Files.inTurn at h
  split at h
  · rename_i hcreated
    unfold Files.inTurn at h
    split at h
    · rename_i hwritten
      unfold Files.inTurn at h
      split at h
      · rename_i hmoved
        cases h
        exact .written hcreated hwritten hmoved
      · rename_i hmoved
        cases h
        exact .written hcreated hwritten hmoved
    · rename_i hunwritten
      cases h
      exact .unwritten hcreated hunwritten
  · rename_i hnone
    cases h
    exact .noDirectory hnone

theorem save_eq_true_iff : save g files path = (files', true) ↔
    ∃ made written, createParent files path = (made, true) ∧ writeTemporary g made path = (written, true) ∧
      written.moveFile (temporaryPath path) path = (files', true) := by
  simp only [save, Files.inTurn_cons_eq_true_iff, Files.inTurn_nil_eq_true_iff, exists_and_left,
    exists_eq_right]

private theorem createParent_holds {created : Bool} (h : createParent files path = (files', created))
    (hb : files'.Holds place b) : files.Holds place b := by
  obtain ⟨ss, -, hss⟩ := exists_steps_createParent path
  rw [hss] at h
  exact Files.makeSteps_holds h hb

section

variable {done : Bool} {P : Files → Prop}

/-- Each part of writing the temporary file changes that file at most, wherever it stops. -/
theorem writeTemporary_keeps (h : writeTemporary g files path = (files', done)) (hfiles : P files)
    (hputs : ∀ f f', Files.Puts f (temporaryPath path) f' → P f → P f') : P files' := by
  refine Files.inTurn_keeps h hfiles fun change hchange f hf => hputs f _ ?_ hf
  simp only [List.mem_cons, List.not_mem_nil, or_false] at hchange
  rcases hchange with rfl | rfl | rfl | rfl
  · exact Files.puts_createFile f _
  · exact Files.puts_appendBytes f _ _
  · exact Files.puts_appendBytes f _ _
  · exact Files.puts_syncFile f _

theorem sameConditions_writeTemporary (h : writeTemporary g files path = (files', done)) :
    Files.SameConditions files files' :=
  writeTemporary_keeps h (.refl files) fun _ _ hputs hsame => hsame.trans hputs.sameConditions

private theorem writeTemporary_holds (h : writeTemporary g files path = (files', done))
    (hb : files'.Holds place b) :
    files'.place? (temporaryPath path) = some place ∨ files.Holds place b := by
  rw [(sameConditions_writeTemporary h).place?]
  refine (writeTemporary_keeps (P := fun f => Files.SameConditions files f ∧ (f.Holds place b →
    files.place? (temporaryPath path) = some place ∨ files.Holds place b)) h ⟨.refl files, .inr⟩ ?_).2 hb
  rintro f f' hputs ⟨hsame, hf⟩
  refine ⟨hsame.trans hputs.sameConditions, fun hf' => ?_⟩
  rcases hputs.holds hf' with hplace | hold
  · exact .inl (hsame.place? _ ▸ hplace)
  · exact hf hold

theorem writeTemporary_eq_true_iff : writeTemporary g files path = (files', true) ↔
    ∃ created written ended, files.createFile (temporaryPath path) = (created, true) ∧
      created.appendBytes (temporaryPath path) (Json.compact (Snapshot.toJson g)).toUTF8 = (written, true) ∧
      written.appendBytes (temporaryPath path) "\n".toUTF8 = (ended, true) ∧
      ended.syncFile (temporaryPath path) = (files', true) := by
  simp only [writeTemporary, Files.inTurn_cons_eq_true_iff, Files.inTurn_nil_eq_true_iff, exists_and_left,
    exists_eq_right]

/-- Once all is written, the snapshot is in the temporary file. -/
theorem writeTemporary_bytes? (h : writeTemporary g files path = (files', true)) :
    files'.bytes? (temporaryPath path) = some (Snapshot.toText g).toUTF8 := by
  obtain ⟨created, written, ended, hcreated, hsnapshot, hend, hsynced⟩ := writeTemporary_eq_true_iff.mp h
  obtain ⟨b₁, hb₁, hb₂⟩ := Files.appendBytes_bytes? hsnapshot
  obtain ⟨b₂, hb₂', hb₃⟩ := Files.appendBytes_bytes? hend
  rw [Files.createFile_bytes? hcreated, Option.some.injEq] at hb₁
  rw [hb₂, ← hb₁, ByteArray.empty_append, Option.some.injEq] at hb₂'
  rw [Files.syncFile_eq hsynced, hb₃, ← hb₂']
  simp only [Snapshot.toText, String.toUTF8_eq_toByteArray, String.toByteArray_append]

end

/-- The only whole content that saving adds is the snapshot. A save that fails may leave anything in its
temporary file. -/
theorem save_holds {done : Bool} (h : save g files path = (files', done)) (hb : files'.Holds place b) :
    b = (Snapshot.toText g).toUTF8 ∨ files.Holds place b ∨
      done = false ∧ files'.place? (temporaryPath path) = some place := by
  cases saved_of_save h with
  | noDirectory hcreated => exact .inr (.inl (createParent_holds hcreated hb))
  | unwritten hcreated hunwritten =>
    rcases writeTemporary_holds hunwritten hb with hplace | hb
    · exact .inr (.inr ⟨rfl, hplace⟩)
    · exact .inr (.inl (createParent_holds hcreated hb))
  | written hcreated hwritten hmoved =>
    have hbytes := writeTemporary_bytes? hwritten
    rcases Files.moveFile_holds hmoved hb with hb | hb
    · rcases writeTemporary_holds hwritten hb with hplace | hb
      · have hthere := Files.bytes?_eq_some_iff.mpr ⟨place, hplace, hb⟩
        exact .inl (Option.some.inj (hthere.symm.trans hbytes))
      · exact .inr (.inl (createParent_holds hcreated hb))
    · exact .inl (Option.some.inj (hb.symm.trans hbytes))

/-- After saving, the file has the snapshot. -/
theorem save_bytes? (h : save g files path = (files', true)) :
    files'.bytes? path = some (Snapshot.toText g).toUTF8 := by
  cases saved_of_save h with
  | written hcreated hwritten hmoved =>
    rw [Files.moveFile_bytes? hmoved, writeTemporary_bytes? hwritten]

/-- Where persisting may have left a part of a snapshot. -/
def tornPlace? (s : StoredGraph) (files : Files) : Option (List String) :=
  s.path.bind fun path =>
    if files.text? (temporaryPath path) = some (Snapshot.toText s.graph) then none
    else files.place? (temporaryPath path)

private theorem persist_holds {s : StoredGraph} {result : Except GraphError Unit}
    (h : s.persist files = (files', result)) (hb : files'.Holds place b) :
    b = (Snapshot.toText s.graph).toUTF8 ∨ files.Holds place b ∨
      (∃ e, result = .error e) ∧ s.tornPlace? files' = some place := by
  unfold persist at h
  split at h
  · cases h
    exact .inr (.inl hb)
  · rename_i path hpath
    cases hsave : save s.graph files path with
    | mk f done =>
      simp only [hsave, Prod.mk.injEq] at h
      obtain ⟨rfl, rfl⟩ := h
      rcases save_holds hsave hb with hnew | hold | ⟨rfl, hplace⟩
      · exact .inl hnew
      · exact .inr (.inl hold)
      · by_cases hwhole : f.text? (temporaryPath path) = some (Snapshot.toText s.graph)
        · have hthere := Files.bytes?_eq_some_iff.mpr ⟨place, hplace, hb⟩
          exact .inl (Option.some.inj (hthere.symm.trans (bytes?_of_text? hwhole)))
        · refine .inr (.inr ⟨⟨_, rfl⟩, ?_⟩)
          rw [tornPlace?, hpath, Option.bind_some, if_neg hwhole, hplace]

theorem save_of_persist {s : StoredGraph} (h : s.persist files = (files', .ok ()))
    (hpath : s.path = some path) : save s.graph files path = (files', true) := by
  simp only [persist, hpath, Prod.mk.injEq, ite_eq_left_iff, reduceCtorEq, imp_false,
    Bool.not_eq_true, Bool.not_eq_false] at h
  exact Prod.ext h.1 h.2

theorem persist_bytes? {s : StoredGraph} (h : s.persist files = (files', .ok ()))
    (hpath : s.path = some path) : files'.bytes? path = some (Snapshot.toText s.graph).toUTF8 :=
  save_bytes? (save_of_persist h hpath)

theorem load_of_text? {text : String} (h : files.text? path = some text) :
    load files path = Snapshot.ofText text := by
  obtain ⟨b, hb, -⟩ := Option.bind_eq_some_iff.mp h
  rw [load, if_pos (Files.exists_of_bytes? hb), h]

theorem ofFile_eq_ok_iff {s : StoredGraph} :
    ofFile files path = .ok s ↔ ∃ g, load files path = .ok g ∧ s = ⟨g, some path⟩ := by
  unfold ofFile
  cases load files path <;> simp [Except.map, eq_comm]

theorem ofFile_of_text? {text : String} (h : files.text? path = some text)
    (hg : Snapshot.ofText text = .ok g) : ofFile files path = .ok ⟨g, some path⟩ :=
  ofFile_eq_ok_iff.mpr ⟨g, (load_of_text? h).trans hg, rfl⟩

theorem of_load_eq_ok (h : load files path = .ok g) :
    g = .empty ∨ ∃ text, files.text? path = some text ∧ Snapshot.ofText text = .ok g := by
  unfold load at h
  split at h
  · split at h
    · rename_i text htext
      exact .inr ⟨text, htext, h⟩
    · cases h
  · cases h
    exact .inl rfl

private theorem integrity_load (h : load files path = .ok g) : g.Integrity := by
  rcases of_load_eq_ok h with rfl | ⟨text, -, htext⟩
  · exact integrity_empty
  · exact Snapshot.integrity_ofText htext

/-- A graph that is loaded from nothing or from the snapshot of an admissible graph is admissible. -/
theorem admissible_load (h : load files path = .ok g)
    (hfile : files.exists path → ∃ place, files.place? path = some place ∧
      ∀ b, files.Holds place b → ∃ g₀ : PropertyGraph, g₀.Admissible ∧
        b = (Snapshot.toText g₀).toUTF8) : g.Admissible := by
  rcases of_load_eq_ok h with rfl | ⟨text, htext, hload⟩
  · exact admissible_empty
  · obtain ⟨b, hb, hbtext⟩ := Option.bind_eq_some_iff.mp htext
    obtain ⟨place, hplace, hsnapshots⟩ := hfile (Files.exists_of_bytes? hb)
    obtain ⟨place', hplace', hholds⟩ := Files.bytes?_eq_some_iff.mp hb
    cases hplace.symm.trans hplace'
    obtain ⟨g₀, hg₀, rfl⟩ := hsnapshots b hholds
    rw [fromUTF8?_toUTF8, Option.some.injEq] at hbtext
    subst hbtext
    exact Snapshot.admissible_ofText_toText hg₀ hload

end StoredGraph

/-- What may happen while a store is in use. -/
inductive Operation where
  | apply (tx : Transaction)
  | deleteAll
  | persist
  | reopen (path : String)
  /-- Others leave these files behind. -/
  | outside (files : Files)

/-- A store, the files that it sees, and the places of those that it has written and not torn since. -/
structure Session where
  files : Files
  stored : StoredGraph
  persisted : List (List String)

namespace Session

/-- Sessions begin with a new store, or with one that was opened. -/
inductive Begins : Session → Prop
  | new (files : Files) : Begins ⟨files, .new, []⟩
  | opened {files : Files} {path : String} {s : StoredGraph} :
    StoredGraph.ofFile files path = .ok s → Begins ⟨files, s, []⟩

def step (x : Session) : Operation → Session
  | .apply tx => { x with stored.graph := (Store.memory.apply x.stored.graph tx).1 }
  | .deleteAll =>
    match Store.memory.deleteAll x.stored.graph with
    | .ok g => { x with stored.graph := g }
    | .error _ => x
  | .persist =>
    match x.stored.persist x.files with
    | (files, .ok ()) =>
      { x with files, persisted := (x.stored.path.bind files.place?).toList ++ x.persisted }
    | (files, .error _) =>
      { x with files, persisted := x.persisted.filter (x.stored.tornPlace? files != some ·) }
  | .reopen path =>
    match StoredGraph.ofFile x.files path with
    | .ok stored => { x with stored }
    | .error _ => x
  | .outside files => { x with files }

def run (x : Session) (os : List Operation) : Session := os.foldl step x

/-- The session opens no files but those that it has written, and others do not write these. -/
def KeepsToOwn (x : Session) : Operation → Prop
  | .reopen path => x.files.exists path → ∃ place ∈ x.persisted, x.files.place? path = some place
  | .outside files => ∀ place ∈ x.persisted, ∀ b, files.Holds place b → x.files.Holds place b
  | _ => True

/-- Each operation of a run keeps to the files that were written before it. -/
def RunKeepsToOwn (x : Session) (os : List Operation) : Prop :=
  ∀ i o, os[i]? = some o → (x.run (os.take i)).KeepsToOwn o

variable {x : Session} {o : Operation} {os : List Operation}

theorem runKeepsToOwn_cons :
    x.RunKeepsToOwn (o :: os) ↔ x.KeepsToOwn o ∧ (x.step o).RunKeepsToOwn os := by
  constructor
  · intro h
    exact ⟨h 0 o rfl, fun i p hp => h (i + 1) p hp⟩
  · intro hboth i p hp
    obtain ⟨ho, hos⟩ := hboth
    cases i with
    | zero =>
      cases hp
      exact ho
    | succ i => exact hos i p hp

/-- An operation leaves the graph as it is, or makes a transaction, clears the graph, or loads another
one. -/
theorem graph_step (x : Session) (o : Operation) :
    (x.step o).stored.graph = x.stored.graph ∨
      (∃ tx, o = .apply tx ∧ (x.step o).stored.graph = (x.stored.graph.apply tx).1) ∨
      (o = .deleteAll ∧ (x.step o).stored.graph = .empty) ∨
      ∃ path, o = .reopen path ∧ StoredGraph.load x.files path = .ok (x.step o).stored.graph := by
  cases o with
  | apply tx => exact .inr (.inl ⟨tx, rfl, rfl⟩)
  | deleteAll => exact .inr (.inr (.inl ⟨rfl, rfl⟩))
  | persist =>
    simp only [step]
    split <;> exact .inl rfl
  | reopen path =>
    simp only [step]
    split
    · rename_i s hs
      obtain ⟨g, hg, rfl⟩ := StoredGraph.ofFile_eq_ok_iff.mp hs
      exact .inr (.inr (.inr ⟨path, rfl, hg⟩))
    · exact .inl rfl
  | outside files => exact .inl rfl

/-- The empty graph has the property, and every graph that is loaded, and transactions keep it. -/
structure IsInvariant (P : PropertyGraph → Prop) : Prop where
  empty : P .empty
  load : ∀ {files : Files} {path : String} {g : PropertyGraph}, StoredGraph.load files path = .ok g → P g
  apply : ∀ {g : PropertyGraph}, P g → ∀ tx, P (g.apply tx).1

namespace IsInvariant

variable {P : PropertyGraph → Prop} (h : IsInvariant P)

include h

theorem begins (hx : x.Begins) : P x.stored.graph := by
  cases hx with
  | new files => exact h.empty
  | opened hs =>
    obtain ⟨g, hg, rfl⟩ := StoredGraph.ofFile_eq_ok_iff.mp hs
    exact h.load hg

theorem step (hx : P x.stored.graph) (o : Operation) : P (x.step o).stored.graph := by
  rcases x.graph_step o with hgraph | ⟨tx, -, hgraph⟩ | ⟨-, hgraph⟩ | ⟨path, -, hload⟩
  · exact hgraph ▸ hx
  · exact hgraph ▸ h.apply hx tx
  · exact hgraph ▸ h.empty
  · exact h.load hload

theorem run (hx : P x.stored.graph) (os : List Operation) : P (x.run os).stored.graph := by
  induction os generalizing x with
  | nil => exact hx
  | cons o os ih => exact ih (h.step hx o)

end IsInvariant

theorem isInvariant_integrity : IsInvariant Integrity where
  empty := integrity_empty
  load := StoredGraph.integrity_load
  apply := Integrity.apply

/-- The graph is admissible, and so are those in the files that the session has written. -/
structure Admissible (x : Session) : Prop where
  integrity : x.stored.graph.Integrity
  graph : x.stored.graph.Admissible
  persisted : ∀ place ∈ x.persisted, ∀ b, x.files.Holds place b →
    ∃ g : PropertyGraph, g.Admissible ∧ b = (Snapshot.toText g).toUTF8

private theorem admissible_new (files : Files) : Admissible ⟨files, .new, []⟩ where
  integrity := integrity_empty
  graph := admissible_empty
  persisted place hplace := by cases hplace

private theorem Admissible.graph_step (h : x.Admissible) (ho : x.KeepsToOwn o) :
    (x.step o).stored.graph.Admissible := by
  rcases x.graph_step o with hgraph | ⟨tx, -, hgraph⟩ | ⟨-, hgraph⟩ | ⟨path, rfl, hload⟩
  · exact hgraph ▸ h.graph
  · exact hgraph ▸ PropertyGraph.Admissible.apply h.integrity h.graph tx
  · exact hgraph ▸ admissible_empty
  · refine StoredGraph.admissible_load hload fun hexists => ?_
    obtain ⟨place, hown, hplace⟩ := ho hexists
    exact ⟨place, hplace, h.persisted place hown⟩

private theorem Admissible.persisted_step (h : x.Admissible) (ho : x.KeepsToOwn o) :
    ∀ place ∈ (x.step o).persisted, ∀ b, (x.step o).files.Holds place b →
      ∃ g : PropertyGraph, g.Admissible ∧ b = (Snapshot.toText g).toUTF8 := by
  cases o with
  | apply tx => exact h.persisted
  | deleteAll => exact h.persisted
  | persist =>
    simp only [Session.step]
    split
    · rename_i files' hpersist
      intro place hplace b hb
      rcases StoredGraph.persist_holds hpersist hb with rfl | hold | ⟨⟨_, herror⟩, -⟩
      · exact ⟨_, h.graph, rfl⟩
      · rcases List.mem_append.mp hplace with hnew | hbefore
        · obtain ⟨path, hpath, hplace⟩ := Option.bind_eq_some_iff.mp (Option.mem_toList.mp hnew)
          have hread := Files.bytes?_eq_some_iff.mpr ⟨place, hplace, hb⟩
          rw [StoredGraph.persist_bytes? hpersist hpath] at hread
          exact ⟨_, h.graph, (Option.some.inj hread).symm⟩
        · exact h.persisted place hbefore b hold
      · cases herror
    · rename_i files' e hpersist
      intro place hplace b hb
      obtain ⟨hbefore, hwhole⟩ := List.mem_filter.mp hplace
      rcases StoredGraph.persist_holds hpersist hb with rfl | hold | ⟨-, htorn⟩
      · exact ⟨_, h.graph, rfl⟩
      · exact h.persisted place hbefore b hold
      · simp [htorn] at hwhole
  | reopen path =>
    simp only [Session.step]
    split <;> exact h.persisted
  | outside files => exact fun place hplace b hb => h.persisted place hplace b (ho place hplace b hb)

theorem Admissible.step (h : x.Admissible) (ho : x.KeepsToOwn o) : (x.step o).Admissible :=
  ⟨isInvariant_integrity.step h.integrity o, h.graph_step ho, h.persisted_step ho⟩

theorem Admissible.run (h : x.Admissible) (hos : x.RunKeepsToOwn os) : (x.run os).Admissible := by
  induction os generalizing x with
  | nil => exact h
  | cons o os ih =>
    obtain ⟨ho, hos⟩ := runKeepsToOwn_cons.mp hos
    exact ih (h.step ho) hos

/-- Every store keeps integrity, whatever file it was opened from and whatever is done with it. A
store that was new and opens only its own files also keeps to valid keys and the right kinds. -/
theorem graph_of_run (hx : x.Begins) (os : List Operation) :
    (x.run os).stored.graph.Integrity ∧
      (x.stored = .new → x.RunKeepsToOwn os → (x.run os).stored.graph.Admissible) := by
  refine ⟨isInvariant_integrity.run (isInvariant_integrity.begins hx) os, fun hnew hos => ?_⟩
  have hadmissible : x.Admissible := by
    cases hx with
    | new files => exact admissible_new files
    | opened _ =>
      simp only at hnew
      rw [hnew]
      exact admissible_new _
  exact (hadmissible.run hos).graph

theorem graph_of_run_reopened :
    let x : Session := ⟨.empty ["home"], .new, []⟩
    let tx : Transaction :=
      [.node ⟨.ofClass "A", .empty⟩, .node ⟨.ofClass "B", .empty⟩,
        .relationship ⟨.ofClass "A", .inherits, .ofClass "B"⟩]
    let os : List Operation := [.reopen "graph.json", .apply tx, .persist, .reopen "graph.json"]
    (x.Begins ∧ x.RunKeepsToOwn os) ∧
      (x.run os).stored.graph.Integrity ∧ (x.run os).stored.graph.Admissible := by
  intro x tx os
  have hx : x.Begins := .new _
  have hos : x.RunKeepsToOwn os := by
    have hfirst : ¬x.files.exists "graph.json" := by decide +kernel
    simp only [os, runKeepsToOwn_cons]
    exact ⟨fun h => (hfirst h).elim, trivial, trivial,
      fun _ => ⟨["home", "graph.json"], by decide +kernel, by decide +kernel⟩,
      fun i o h => by simp at h⟩
  exact ⟨⟨hx, hos⟩, (graph_of_run hx os).1, (graph_of_run hx os).2 rfl hos⟩

end Session

/-- The graphs that stores come to hold. -/
def Reachable (g : PropertyGraph) : Prop :=
  ∃ (x : Session) (os : List Operation), x.Begins ∧ (x.run os).stored.graph = g

theorem Reachable.of_isInvariant {P : PropertyGraph → Prop} (h : Reachable g)
    (hP : Session.IsInvariant P) : P g := by
  obtain ⟨x, os, hx, rfl⟩ := h
  exact hP.run (hP.begins hx) os

theorem Reachable.integrity (h : Reachable g) : g.Integrity :=
  h.of_isInvariant Session.isInvariant_integrity

theorem reachable_empty : Reachable .empty := ⟨_, [], .new default, rfl⟩

theorem Reachable.apply (h : Reachable g) (tx : Transaction) : Reachable (g.apply tx).1 := by
  obtain ⟨x, os, hx, rfl⟩ := h
  exact ⟨x, os ++ [.apply tx], hx, by simp [Session.run, Session.step, Store.memory]⟩

/-- A transaction is made as a whole, with the effect of all its writes, or it is refused for its first
wrong write and the graph stays as it was. -/
theorem apply_all_or_nothing (hg : Reachable g) (tx : Transaction) :
    ((∃ s, (g.apply tx).2 = .ok s) ↔ Accepts (· ∈ g.keys) tx) ∧
      (∀ e, (g.apply tx).2 = .error e ↔ Refuses (· ∈ g.keys) tx e) ∧
      (∀ e, (g.apply tx).2 = .error e → (g.apply tx).1 = g) ∧
      (g.check [] tx = .ok () → ∃ s, (g.execute tx).2 = .ok s) ∧
      ∀ s, (g.apply tx).2 = .ok s → Effect g tx (g.apply tx).1 s ∧
        (g.apply tx).1.counts.nodes = g.counts.nodes + s.nodesCreated ∧
          (g.apply tx).1.counts.relationships =
            g.counts.relationships + s.relationshipsCreated := by
  have h := hg.integrity
  refine ⟨apply_eq_ok_iff h tx, apply_eq_error_iff h tx, fun e => apply_of_error h,
    execute_of_check h, fun s hs => ?_⟩
  have heffect := apply_effect h (Prod.ext rfl hs)
  exact ⟨heffect, heffect.nodes_created, heffect.edges_created⟩

theorem apply_all_or_nothing_missing_target :
    let g := (PropertyGraph.empty.apply [.node ⟨.ofClass "A", .empty⟩]).1
    let tx : Transaction :=
      [.node ⟨.ofClass "C", .empty⟩, .relationship ⟨.ofClass "A", .inherits, .ofClass "B"⟩]
    Reachable g ∧ (g.apply tx).2 = .error (.missingEndpoint (.ofClass "B")) ∧
      (g.apply tx).1 = g := by
  intro g tx
  have hg : Reachable g := reachable_empty.apply _
  have herror : (g.apply tx).2 = .error (.missingEndpoint (.ofClass "B")) := by decide +kernel
  exact ⟨hg, herror, (apply_all_or_nothing hg tx).2.2.1 _ herror⟩

end StructureGraph.Graph
