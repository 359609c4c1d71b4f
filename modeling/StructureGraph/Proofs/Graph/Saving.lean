import StructureGraph.Proofs.Files.Frame
import StructureGraph.Proofs.Graph.Persistence

namespace StructureGraph.Graph.StoredGraph

open Files (DifferAt Extends SameConditions SameDirectories)
open Files.Path (steps)

variable {f f' f₁ f₂ f₂' : Files} {g : PropertyGraph} {path : String} {created done : Bool}

theorem extends_createParent (h : createParent f path = (f', created)) :
    Extends (fun _ => False) f f' := by
  obtain ⟨ss, -, hss⟩ := exists_steps_createParent path
  rw [hss] at h
  exact Files.extends_makeSteps h

private theorem isProper_createParent (hf : f.root.isProper) (h : createParent f path = (f', created)) :
    f'.root.isProper := by
  obtain ⟨ss, hnames, hss⟩ := exists_steps_createParent path
  rw [hss] at h
  exact Files.isProper_makeSteps hf hnames h

private theorem exists_createParent (h : DifferAt (f.destination path) f f₂)
    (hsystem : f₂.system = f.system)
    (hcreated : createParent f path = (f', true)) (hfree : f'.isDirectoryAt (f.destination path) = false) :
    ∃ f₂', createParent f₂ path = (f₂', true) ∧ DifferAt (f.destination path) f' f₂' := by
  obtain ⟨ss, -, hss⟩ := exists_steps_createParent path
  rw [hss] at hcreated ⊢
  rw [h.workingDirectory]
  exact h.exists_makeSteps hsystem hcreated hfree

/-- The temporary file lies beside that of the graph. -/
theorem destination_temporaryPath {n : String} (h : Files.Path.fileName? path = some n) (f : Files) :
    ∃ parent, f.destination path = parent ++ [n] ∧
      f.destination (temporaryPath path) = parent ++ [Files.Path.stem n ++ "." ++ "json.tmp"] := by
  have hsteps := Files.Path.steps_of_fileName? h
  have htemporary := @Files.Path.steps_withExtension path "json.tmp" n h (by decide) (by decide)
  refine ⟨(steps path).dropLast.foldl Files.move f.workingDirectory, ?_, ?_⟩
  · rw [Files.destination, hsteps, List.foldl_append, List.dropLast_concat]
    rfl
  · rw [Files.destination, temporaryPath, htemporary, List.foldl_append]
    rfl

private theorem destination_temporaryPath_ne {n : String} (h : Files.Path.fileName? path = some n)
    (f : Files) :
    f.destination (temporaryPath path) ≠ f.destination path := by
  obtain ⟨parent, hpath, htemporary⟩ := destination_temporaryPath h f
  rw [hpath, htemporary]
  intro heq
  have hname := List.append_cancel_left heq
  exact Files.Path.stem_append_ne (by decide) n (List.singleton_inj.mp hname)

/-- Where something can be put at the temporary path the path ends in a name. -/
theorem exists_fileName?_of_putFile {b : ByteArray}
    (h : f.putFile (temporaryPath path) b = (f', true)) :
    ∃ n, Files.Path.fileName? path = some n := by
  obtain ⟨hfalse, -⟩ | ⟨q, -, hplace, hne, hfree, -, -⟩ := Files.putFile_cases h
  · cases hfalse
  · obtain ⟨m, hm⟩ := Files.exists_fileName? hplace hne hfree
    cases hname : Files.Path.fileName? path with
    | some n => exact ⟨n, rfl⟩
    | none =>
      simp only [temporaryPath, Files.Path.withExtension, hname] at hm
      cases hm

/-- Where the temporary file lies, and the file of the graph does not. -/
def IsTemporary (f : Files) (path : String) (p : List String) : Prop :=
  p = f.destination (temporaryPath path) ∧ p ≠ f.destination path

private theorem isTemporary_of_extends {hidden : List String → Prop} (h : Extends hidden f f')
    (path : String) :
    IsTemporary f' path = IsTemporary f path := by
  funext p
  simp only [IsTemporary, h.destination]

private theorem extends_of_puts (h : Files.Puts f (temporaryPath path) f') :
    Extends (IsTemporary f path) f f' := by
  cases h with
  | nothing => exact .refl _ f
  | file h =>
    obtain ⟨n, hn⟩ := exists_fileName?_of_putFile h
    refine (Files.extends_putFile h).mono ?_
    rintro p rfl
    exact ⟨rfl, destination_temporaryPath_ne hn f⟩

private theorem extends_writeTemporary (h : writeTemporary g f path = (f', done)) :
    Extends (IsTemporary f path) f f' := by
  refine writeTemporary_keeps h (.refl _ f) fun f₁ f₂ hputs hf₁ => hf₁.trans ?_
  rw [← isTemporary_of_extends hf₁]
  exact extends_of_puts hputs

private theorem extends_createParent_writeTemporary (hcreated : createParent f path = (f₁, true))
    (h : writeTemporary g f₁ path = (f', done)) : Extends (IsTemporary f path) f f' := by
  have hparent := extends_createParent hcreated
  have htemporary := extends_writeTemporary h
  rw [isTemporary_of_extends hparent] at htemporary
  exact (hparent.mono nofun).trans htemporary

private theorem isProper_writeTemporary (hf : f.root.isProper) (h : writeTemporary g f path = (f', done)) :
    f'.root.isProper :=
  writeTemporary_keeps (P := fun f => f.root.isProper) h hf fun _ _ hputs => hputs.isProper

/-- The places at which a save may write. -/
def IsTarget (f : Files) (path : String) (p : List String) : Prop :=
  p = f.destination path ∨ p = f.destination (temporaryPath path)

theorem extends_save (h : save g f path = (f', done)) : Extends (IsTarget f path) f f' := by
  cases saved_of_save h with
  | noDirectory hcreated => exact (extends_createParent hcreated).mono nofun
  | unwritten hcreated hunwritten =>
    exact (extends_createParent_writeTemporary hcreated hunwritten).mono fun _ hp => .inr hp.1
  | written hcreated hwritten hmoved =>
    have htemporary := extends_createParent_writeTemporary hcreated hwritten
    have hmove := Files.extends_moveFile hmoved
    rw [htemporary.destination, htemporary.destination] at hmove
    exact (htemporary.mono fun _ hp => .inr hp.1).trans (hmove.mono fun _ => Or.symm)

theorem system_save (h : save g f path = (f', done)) : f'.system = f.system := by
  cases saved_of_save h with
  | noDirectory hcreated => exact system_createParent hcreated
  | unwritten hcreated hunwritten =>
    exact (sameConditions_writeTemporary hunwritten).system.trans (system_createParent hcreated)
  | written hcreated hwritten hmoved =>
    have hsame := (sameConditions_writeTemporary hwritten).trans (Files.sameConditions_moveFile hmoved)
    exact hsame.system.trans (system_createParent hcreated)

/-- A save that fails may leave anything in its temporary file, and leaves the file of the graph. -/
theorem extends_of_save_fails (h : save g f path = (f', false)) : Extends (IsTemporary f path) f f' := by
  cases saved_of_save h with
  | noDirectory hcreated => exact (extends_createParent hcreated).mono nofun
  | unwritten hcreated hunwritten => exact extends_createParent_writeTemporary hcreated hunwritten
  | written hcreated hwritten hmoved =>
    obtain ⟨-, rfl⟩ | ⟨_, _, htrue, -⟩ := Files.moveFile_cases hmoved
    · exact extends_createParent_writeTemporary hcreated hwritten
    · cases htrue

theorem isProper_save (hf : f.IsProper) (h : save g f path = (f', done)) : f'.IsProper := by
  have hextends := extends_save h
  refine ⟨?_, ?_⟩
  · cases saved_of_save h with
    | noDirectory hcreated => exact isProper_createParent hf.root hcreated
    | unwritten hcreated hunwritten =>
      exact isProper_writeTemporary (isProper_createParent hf.root hcreated) hunwritten
    | written hcreated hwritten hmoved =>
      exact Files.isProper_moveFile (isProper_writeTemporary (isProper_createParent hf.root hcreated)
        hwritten) hmoved
  · rw [hextends.workingDirectory]
    exact hextends.isDirectoryAt _ hf.workingDirectory

/-- A file was moved to its place, so no directory has been made there. -/
theorem isDirectoryAt_destination_of_save (h : save g f path = (f', true))
    (hcreated : createParent f path = (f₁, true)) : f₁.isDirectoryAt (f.destination path) = false := by
  cases saved_of_save h with
  | written hcreated' hwritten hmoved =>
    rw [hcreated, Prod.mk.injEq] at hcreated'
    obtain ⟨rfl, -⟩ := hcreated'
    obtain ⟨hfalse, -⟩ | ⟨place, b, -, hplace, hb, -, hwrite⟩ := Files.moveFile_cases hmoved
    · cases hfalse
    · obtain ⟨hfalse, -⟩ | ⟨q, -, hq, -, hfree, -, -⟩ := Files.putFile_cases hwrite
      · cases hfalse
      · have hsame := (sameConditions_writeTemporary hwritten).toSameDirectories
        have hremoved := Files.sameDirectories_remove hplace hb
        rw [Files.eq_destination hq, hremoved.isDirectoryAt, hsame.isDirectoryAt] at hfree
        rw [← (extends_createParent hcreated).destination, Files.destination, ← hsame.workingDirectory]
        exact hfree

private theorem exists_createParent_of_save (h : save g f path = (f', true)) :
    ∃ f₁, createParent f path = (f₁, true) := by
  cases saved_of_save h with
  | written hcreated => exact ⟨_, hcreated⟩

/-- Where one graph can be saved any graph can, unless the system makes a difference between them. -/
theorem save_eq_of_graph (f : Files) (path : String) {g g' : PropertyGraph} (h : WritesLike f g g')
    (h' : WritesLike f g' g) : (save g' f path).2 = (save g f path).2 := by
  have hsaves : ∀ g₁ g₂, WritesLike f g₁ g₂ → (save g₁ f path).2 = true → (save g₂ f path).2 = true := by
    intro g₁ g₂ hwrites hsaved
    obtain ⟨f₁, hcreated⟩ := exists_createParent_of_save (Prod.ext rfl hsaved)
    exact save_of_sameConditions (Prod.ext rfl hsaved) hcreated hcreated (.refl f₁) hwrites
  rw [Bool.eq_iff_iff]
  exact ⟨hsaves g' g h', hsaves g g' h⟩

private theorem save_of_differAt (h : save g f path = (f', true))
    (hdiffer : DifferAt (f.destination path) f f₂)
    (hsystem : f₂.system = f.system) : (save g f₂ path).2 = true := by
  obtain ⟨f₁, hcreated⟩ := exists_createParent_of_save h
  obtain ⟨f₁', hcreated', hdiffer'⟩ :=
    exists_createParent hdiffer hsystem hcreated (isDirectoryAt_destination_of_save h hcreated)
  have hsystem' : f₁'.system = f₁.system := by
    rw [system_createParent hcreated', system_createParent hcreated, hsystem]
  exact save_of_sameConditions h hcreated hcreated' ⟨hdiffer'.toSameDirectories, hsystem'⟩ (.refl f g)

/-- What was in the file of the graph makes no difference to whether a save succeeds. -/
theorem save_eq_of_differAt (g : PropertyGraph) (hdiffer : DifferAt (f.destination path) f f₂)
    (hsystem : f₂.system = f.system) : (save g f₂ path).2 = (save g f path).2 := by
  have hback : DifferAt (f₂.destination path) f₂ f := by
    rw [hdiffer.extends.destination]
    exact hdiffer.symm
  rw [Bool.eq_iff_iff]
  exact ⟨fun h => save_of_differAt (Prod.ext rfl h) hback hsystem.symm,
    fun h => save_of_differAt (Prod.ext rfl h) hdiffer hsystem⟩

/-- Neither does it make a difference whether the directory had to be made. -/
theorem save_eq_of_createParent (g : PropertyGraph) (hcreated : createParent f path = (f₁, true))
    (hsame : SameConditions f₁ f₂) : (save g f₂ path).2 = (save g f path).2 := by
  have hagain := createParent_again hcreated hsame.toSameDirectories
  rw [Bool.eq_iff_iff]
  exact ⟨fun h => save_of_sameConditions (Prod.ext rfl h) hagain hcreated hsame.symm (.refl f₂ g),
    fun h => save_of_sameConditions (Prod.ext rfl h) hcreated hagain hsame (.refl f g)⟩

end StructureGraph.Graph.StoredGraph
