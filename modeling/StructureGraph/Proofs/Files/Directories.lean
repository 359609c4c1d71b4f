import StructureGraph.Proofs.Files.Content

namespace StructureGraph.Files

/-- Directories are at the same places, and relative paths start from the same one. -/
structure SameDirectories (f f' : Files) : Prop where
  isDirectoryAt : ∀ p, f'.isDirectoryAt p = f.isDirectoryAt p
  workingDirectory : f'.workingDirectory = f.workingDirectory

variable {f f' f₁ f₂ : Files} {place next : List String} {path source target : String}
  {b c : ByteArray} {done : Bool}

theorem SameDirectories.refl (f : Files) : SameDirectories f f := ⟨fun _ => rfl, rfl⟩

theorem SameDirectories.symm (h : SameDirectories f f') : SameDirectories f' f :=
  ⟨fun p => (h.isDirectoryAt p).symm, h.workingDirectory.symm⟩

theorem SameDirectories.trans (h₁ : SameDirectories f f₁) (h₂ : SameDirectories f₁ f₂) :
    SameDirectories f f₂ where
  isDirectoryAt p := (h₂.isDirectoryAt p).trans (h₁.isDirectoryAt p)
  workingDirectory := h₂.workingDirectory.trans h₁.workingDirectory

theorem SameDirectories.place? (h : SameDirectories f f') (path : String) :
    f'.place? path = f.place? path :=
  place?_congr h.isDirectoryAt h.workingDirectory path

/-- What decides whether changes can be made is the same. -/
structure SameConditions (f f' : Files) : Prop extends SameDirectories f f' where
  system : f'.system = f.system

theorem SameConditions.refl (f : Files) : SameConditions f f := ⟨.refl f, rfl⟩

theorem SameConditions.symm (h : SameConditions f f') : SameConditions f' f :=
  ⟨h.toSameDirectories.symm, h.system.symm⟩

theorem SameConditions.trans (h₁ : SameConditions f f₁) (h₂ : SameConditions f₁ f₂) :
    SameConditions f f₂ :=
  ⟨h₁.toSameDirectories.trans h₂.toSameDirectories, h₂.system.trans h₁.system⟩

/-- All that a step can do: it finds a directory, or makes one where there is nothing. -/
inductive MadeStep (f : Files) (place : List String) : Path.Step → Files → List String → Prop
  | root : MadeStep f place .root f []
  | here : f.isDirectoryAt place → MadeStep f place .here f place
  | up : f.isDirectoryAt place → MadeStep f place .up f place.dropLast
  | enter {n : String} : f.isDirectoryAt (place ++ [n]) →
    MadeStep f place (.name n) f (place ++ [n])
  | make {n : String} : f.root.descend? (place ++ [n]) = none → f.isDirectoryAt place →
    f.system.makesDirectory (place ++ [n]) → MadeStep f place (.name n)
      { f with root := f.root.put (place ++ [n]) (.directory []) } (place ++ [n])

variable {s : Path.Step} {ss : List Path.Step} {p q : List String}

theorem madeStep_of_eq_some (h : f.makeStep place s = some (f', next)) :
    MadeStep f place s f' next := by
  cases s with
  | root =>
    cases h
    exact .root
  | here =>
    simp only [makeStep] at h
    split at h <;> cases h
    rename_i hplace
    exact .here hplace
  | up =>
    simp only [makeStep] at h
    split at h <;> cases h
    rename_i hplace
    exact .up hplace
  | name n =>
    simp only [makeStep] at h
    split at h
    · rename_i hthere
      cases h
      exact .enter hthere
    · split at h
      · cases h
      · split at h <;> cases h
        rename_i hfree hmakes
        simp only [Bool.or_eq_true, not_or, Bool.not_eq_true, Bool.not_eq_false',
          Option.isSome_eq_false_iff, Option.isNone_iff_eq_none] at hfree
        exact .make hfree.1 hfree.2 (by simpa using hmakes)

theorem MadeStep.workingDirectory (h : MadeStep f place s f' next) :
    f'.workingDirectory = f.workingDirectory := by
  cases h <;> rfl

theorem MadeStep.system (h : MadeStep f place s f' next) : f'.system = f.system := by
  cases h <;> rfl

/-- A step that makes a directory changes nothing else. -/
theorem seen?_put_directory {n : String} (hfree : f.root.descend? (place ++ [n]) = none)
    (hplace : f.isDirectoryAt place) (q : List String) :
    (f.root.put (place ++ [n]) (.directory [])).seen? q =
      if q = place ++ [n] then some none else f.root.seen? q := by
  refine Entry.seen?_put Entry.isBare_directory (by simp) ?_ ?_ q
  · rw [List.dropLast_concat]
    exact hplace
  · rw [hfree]
    rfl

theorem MadeStep.isDirectoryAt (h : MadeStep f place s f' next) (hp : f.isDirectoryAt p) :
    f'.isDirectoryAt p := by
  cases h with
  | make hfree hplace _ =>
    rw [isDirectoryAt_iff_seen?] at hp ⊢
    rw [seen?_put_directory hfree hplace, hp, ite_self]
  | _ => exact hp

theorem MadeStep.holds_iff (h : MadeStep f place s f' next) : f'.Holds q b ↔ f.Holds q b := by
  cases h with
  | make hfree hplace _ =>
    rw [holds_iff_seen?, holds_iff_seen?, seen?_put_directory hfree hplace]
    split
    · rename_i hq
      rw [hq, descend?_eq_none_iff_seen?.mp hfree]
      simp
    · exact Iff.rfl
  | _ => exact Iff.rfl

theorem isDirectoryAt_put_directory {n : String} (hfree : f.root.descend? (place ++ [n]) = none)
    (hplace : f.isDirectoryAt place) :
    isDirectoryAt { f with root := f.root.put (place ++ [n]) (.directory []) } (place ++ [n]) := by
  rw [isDirectoryAt_iff_seen?, seen?_put_directory hfree hplace, if_pos rfl]

/-- A step that was made leads to the same place wherever the directories are that it came to. -/
theorem MadeStep.again (h : MadeStep f place s f' next)
    (hkept : ∀ p, f'.isDirectoryAt p → f₂.isDirectoryAt p) :
    f₂.makeStep place s = some (f₂, next) := by
  cases h with
  | root => rfl
  | here hplace => simp only [makeStep, if_pos (hkept _ hplace)]
  | up hplace => simp only [makeStep, if_pos (hkept _ hplace)]
  | enter hthere => simp only [makeStep, if_pos (hkept _ hthere)]
  | make hfree hplace _ =>
    have hthere := hkept _ (isDirectoryAt_put_directory hfree hplace)
    simp only [makeStep, if_pos hthere]

theorem makeSteps_cons (h : f.makeSteps place (s :: ss) = (f₁, true)) :
    ∃ f' next, MadeStep f place s f' next ∧ f'.makeSteps next ss = (f₁, true) := by
  rw [makeSteps] at h
  split at h
  · rename_i f' next hs
    exact ⟨f', next, madeStep_of_eq_some hs, h⟩
  · cases h

/-- What every step keeps is kept, whether or not all steps can be made. -/
theorem makeSteps_keeps {P : Files → Prop} (h : f.makeSteps place ss = (f', done)) (hf : P f)
    (hstep : ∀ f₁ start s f₂ next, s ∈ ss → MadeStep f₁ start s f₂ next → P f₁ → P f₂) : P f' := by
  induction ss generalizing f place with
  | nil =>
    cases h
    exact hf
  | cons s ss ih =>
    have hrest : ∀ f₁ start s f₂ next, s ∈ ss → MadeStep f₁ start s f₂ next → P f₁ → P f₂ :=
      fun f₁ start s' f₂ next hs' => hstep f₁ start s' f₂ next (List.mem_cons_of_mem s hs')
    rw [makeSteps] at h
    split at h
    · rename_i hs
      exact ih h (hstep _ _ _ _ _ List.mem_cons_self (madeStep_of_eq_some hs) hf) hrest
    · cases h
      exact hf

theorem isDirectoryAt_makeSteps (h : f.makeSteps place ss = (f', done)) (hp : f.isDirectoryAt p) :
    f'.isDirectoryAt p :=
  makeSteps_keeps h hp fun _ _ _ _ _ _ hs => hs.isDirectoryAt

theorem workingDirectory_makeSteps (h : f.makeSteps place ss = (f', done)) :
    f'.workingDirectory = f.workingDirectory :=
  makeSteps_keeps (P := fun f₁ => f₁.workingDirectory = f.workingDirectory) h rfl
    fun _ _ _ _ _ _ hs hf => hs.workingDirectory.trans hf

theorem system_makeSteps (h : f.makeSteps place ss = (f', done)) : f'.system = f.system :=
  makeSteps_keeps (P := fun f₁ => f₁.system = f.system) h rfl
    fun _ _ _ _ _ _ hs hf => hs.system.trans hf

theorem makeSteps_holds (h : f.makeSteps place ss = (f', done)) (hq : f'.Holds q b) : f.Holds q b :=
  makeSteps_keeps (P := fun f₁ => f₁.Holds q b → f.Holds q b) h id
    (fun _ _ _ _ _ _ hs hf hq => hf (hs.holds_iff.mp hq)) hq

/-- Directories that were made need not be made again. -/
theorem makeSteps_again (h : f.makeSteps place ss = (f₁, true)) (hsame : SameDirectories f₁ f₂) :
    f₂.makeSteps place ss = (f₂, true) := by
  induction ss generalizing f place with
  | nil => rfl
  | cons s ss ih =>
    obtain ⟨f', next, hs, hss⟩ := makeSteps_cons h
    have hstep : f₂.makeStep place s = some (f₂, next) := hs.again fun p hp => by
      rw [hsame.isDirectoryAt]
      exact isDirectoryAt_makeSteps hss hp
    rw [makeSteps, hstep]
    exact ih hss

/-- All that can be done: nothing, or the file is put where the path leads. -/
theorem putFile_cases (h : f.putFile path b = (f', done)) :
    (done = false ∧ f' = f) ∨ ∃ q, done = true ∧ f.place? path = some q ∧ q ≠ [] ∧
      f.isDirectoryAt q = false ∧ f.isDirectoryAt q.dropLast ∧
      f' = { f with root := f.root.put q (.file b) } := by
  unfold putFile at h
  split at h
  · rename_i q hq
    split at h
    · cases h
      exact .inl ⟨rfl, rfl⟩
    · rename_i hno
      simp only [Bool.or_eq_true, decide_eq_true_eq, not_or, Bool.not_eq_true] at hno
      split at h
      · rename_i hparent
        cases h
        exact .inr ⟨q, rfl, hq, hno.1, hno.2, hparent, rfl⟩
      · cases h
        exact .inl ⟨rfl, rfl⟩
  · cases h
    exact .inl ⟨rfl, rfl⟩

/-- A file that is put somewhere is all that changes. -/
theorem seen?_putFile_cases (h : f.putFile path b = (f', done)) :
    (done = false ∧ f' = f) ∨ ∃ place, done = true ∧ f.place? path = some place ∧
      f.isDirectoryAt place = false ∧ f'.workingDirectory = f.workingDirectory ∧
      ∀ q, f'.root.seen? q = if q = place then some (some b) else f.root.seen? q := by
  refine (putFile_cases h).imp_right ?_
  rintro ⟨place, hdone, hplace, hne, hfree, hparent, rfl⟩
  exact ⟨place, hdone, hplace, hfree, rfl, Entry.seen?_put (Entry.isBare_file b) hne hparent hfree⟩

theorem sameDirectories_putFile (h : f.putFile path b = (f', done)) :
    SameDirectories f f' := by
  obtain ⟨-, rfl⟩ | ⟨place, -, -, hfree, hwork, hseen⟩ := seen?_putFile_cases h
  · exact .refl f'
  · refine ⟨fun p => ?_, hwork⟩
    rw [Bool.eq_iff_iff, isDirectoryAt_iff_seen?, isDirectoryAt_iff_seen?, hseen]
    split
    · rename_i hp
      rw [← isDirectoryAt_iff_seen?, hp, hfree]
      simp
    · exact Iff.rfl

private theorem system_putFile (h : f.putFile path b = (f', done)) : f'.system = f.system := by
  obtain ⟨-, rfl⟩ | ⟨_, -, -, -, -, -, rfl⟩ := putFile_cases h <;> rfl

private theorem putFile_holds (h : f.putFile path b = (f', done)) (hq : f'.Holds q c) :
    c = b ∧ f.place? path = some q ∨ f.Holds q c := by
  obtain ⟨-, rfl⟩ | ⟨place, -, hplace, -, -, hseen⟩ := seen?_putFile_cases h
  · exact .inr hq
  · rw [holds_iff_seen?, hseen] at hq
    split at hq
    · rename_i heq
      exact .inl ⟨(Option.some.inj (Option.some.inj hq)).symm, heq ▸ hplace⟩
    · exact .inr (holds_iff_seen?.mpr hq)

/-- What was put somewhere can be read under the same path. -/
theorem putFile_bytes? (h : f.putFile path b = (f', true)) : f'.bytes? path = some b := by
  obtain ⟨hfalse, -⟩ | ⟨place, -, hplace, -, -, hseen⟩ := seen?_putFile_cases h
  · cases hfalse
  · refine bytes?_eq_some_iff.mpr ⟨place, ?_, ?_⟩
    · rw [(sameDirectories_putFile h).place?, hplace]
    · rw [holds_iff_seen?, hseen, if_pos rfl]

private theorem putFile_succeeds (hsame : SameDirectories f f') (path : String) (b c : ByteArray) :
    (f'.putFile path c).2 = (f.putFile path b).2 := by
  simp only [putFile, hsame.place?, hsame.isDirectoryAt]
  split
  · split
    · rfl
    · split <;> rfl
  · rfl

/-- At most the file at the end of a path has changed. -/
inductive Puts (f : Files) (path : String) : Files → Prop
  | nothing : Puts f path f
  | file {f' : Files} {b : ByteArray} : f.putFile path b = (f', true) → Puts f path f'

private theorem puts_putFile (f : Files) (path : String) (b : ByteArray) :
    Puts f path (f.putFile path b).1 := by
  cases h : f.putFile path b with
  | mk f' done =>
    obtain ⟨-, rfl⟩ | ⟨_, rfl, -⟩ := putFile_cases h
    · exact .nothing
    · exact .file h

theorem puts_createFile (f : Files) (path : String) : Puts f path (f.createFile path).1 := by
  unfold createFile
  split
  · exact puts_putFile f path .empty
  · exact .nothing

theorem puts_appendBytes (f : Files) (path : String) (b : ByteArray) :
    Puts f path (f.appendBytes path b).1 := by
  unfold appendBytes
  split
  · split
    · exact puts_putFile f path _
    · exact puts_putFile f path _
  · exact .nothing

theorem puts_syncFile (f : Files) (path : String) : Puts f path (f.syncFile path).1 := by
  unfold syncFile
  split
  · exact .nothing
  · exact puts_putFile f path _

theorem Puts.sameConditions (h : Puts f path f') : SameConditions f f' := by
  cases h with
  | nothing => exact .refl f
  | file h => exact ⟨sameDirectories_putFile h, system_putFile h⟩

theorem Puts.holds (h : Puts f path f') (hq : f'.Holds q c) : f.place? path = some q ∨ f.Holds q c := by
  cases h with
  | nothing => exact .inr hq
  | file h => exact (putFile_holds h hq).imp_left And.right

theorem createFile_bytes? (h : f.createFile path = (f', true)) : f'.bytes? path = some .empty := by
  unfold createFile at h
  split at h
  · exact putFile_bytes? h
  · cases h

/-- Bytes that could be added stand behind those that were there. -/
theorem appendBytes_bytes? (h : f.appendBytes path c = (f', true)) :
    ∃ b, f.bytes? path = some b ∧ f'.bytes? path = some (b ++ c) := by
  unfold appendBytes at h
  split at h
  · rename_i before _ hbefore
    split at h
    · exact ⟨before, hbefore, putFile_bytes? h⟩
    · cases h
  · cases h

theorem syncFile_eq (h : f.syncFile path = (f', true)) : f' = f := by
  unfold syncFile at h
  split at h <;> cases h
  rfl

private theorem Puts.sameConditions_puts {f₂' : Files} (h : Puts f path f') (hsame : SameConditions f f₂)
    (h₂ : Puts f₂ path f₂') : SameConditions f' f₂' :=
  (h.sameConditions.symm.trans hsame).trans h₂.sameConditions

theorem exists_createFile (h : f.createFile path = (f', true)) (hsame : SameConditions f f₂) :
    ∃ f₂', f₂.createFile path = (f₂', true) ∧ SameConditions f' f₂' := by
  have hputs := puts_createFile f path
  have hdone : (f₂.createFile path).2 = (f.createFile path).2 := by
    simp only [createFile, hsame.place?, hsame.system]
    split
    · exact putFile_succeeds hsame.toSameDirectories path .empty .empty
    · rfl
  rw [h] at hputs hdone
  exact ⟨_, Prod.ext rfl hdone, hputs.sameConditions_puts hsame (puts_createFile f₂ path)⟩

/-- Where some bytes could be added others can be, unless the system makes a difference between them. -/
theorem exists_appendBytes {c' : ByteArray} (h : f.appendBytes path c = (f', true))
    (hsame : SameConditions f f₂) (hb : f₂.bytes? path = some b)
    (hfault : ∀ place, f.system.writeFault? place c = none → f.system.writeFault? place c' = none) :
    ∃ f₂', f₂.appendBytes path c' = (f₂', true) ∧ SameConditions f' f₂' := by
  have hputs := puts_appendBytes f path c
  rw [h] at hputs
  have hdone : (f₂.appendBytes path c').2 = true := by
    unfold appendBytes at h
    split at h
    · rename_i place before hplace hbefore
      split at h
      · rename_i hwritten
        have hput := putFile_succeeds hsame.toSameDirectories path (before ++ c) (b ++ c')
        rw [h] at hput
        simp only [appendBytes, hsame.place?, hplace, hb, hsame.system, hfault place hwritten, hput]
      · cases h
    · cases h
  exact ⟨_, Prod.ext rfl hdone, hputs.sameConditions_puts hsame (puts_appendBytes f₂ path c')⟩

theorem exists_syncFile (h : f.syncFile path = (f', true)) (hsame : SameConditions f f₂) :
    ∃ f₂', f₂.syncFile path = (f₂', true) ∧ SameConditions f' f₂' := by
  have hputs := puts_syncFile f path
  have hdone : (f₂.syncFile path).2 = (f.syncFile path).2 := by
    rw [syncFile, syncFile, hsame.place?, hsame.system]
    cases (f.place? path).bind f.system.syncFault? <;> rfl
  rw [h] at hputs hdone
  exact ⟨_, Prod.ext rfl hdone, hputs.sameConditions_puts hsame (puts_syncFile f₂ path)⟩

variable {change : Files → Files × Bool} {changes : List (Files → Files × Bool)}

theorem inTurn_nil_eq_true_iff : f.inTurn [] = (f', true) ↔ f = f' := by simp [inTurn]

theorem inTurn_cons_eq_true_iff : f.inTurn (change :: changes) = (f', true) ↔
    ∃ f₁, change f = (f₁, true) ∧ f₁.inTurn changes = (f', true) := by
  rw [inTurn]
  constructor
  · intro h
    split at h
    · rename_i f₁ hchange
      exact ⟨f₁, hchange, h⟩
    · cases h
  · rintro ⟨f₁, hchange, h⟩
    rw [hchange]
    exact h

/-- What every change keeps is kept, wherever the changes stop. -/
theorem inTurn_keeps {P : Files → Prop} (h : f.inTurn changes = (f', done)) (hf : P f)
    (hchange : ∀ change ∈ changes, ∀ f₁, P f₁ → P (change f₁).1) : P f' := by
  induction changes generalizing f with
  | nil =>
    cases h
    exact hf
  | cons change changes ih =>
    obtain ⟨hfirst, hrest⟩ := List.forall_mem_cons.mp hchange
    have hf₁ := hfirst f hf
    rw [inTurn] at h
    split at h
    · rename_i heq
      rw [heq] at hf₁
      exact ih h hf₁ hrest
    · rename_i heq
      cases h
      rwa [heq] at hf₁

/-- To write a file changes that file at most, wherever it stops. -/
theorem writeBytes_keeps {P : Files → Prop} (h : f.writeBytes path b = (f', done)) (hf : P f)
    (hputs : ∀ f₁ f₂, Puts f₁ path f₂ → P f₁ → P f₂) : P f' := by
  refine inTurn_keeps h hf fun change hchange f₁ hf₁ => hputs f₁ _ ?_ hf₁
  simp only [List.mem_cons, List.not_mem_nil, or_false] at hchange
  rcases hchange with rfl | rfl
  · exact puts_createFile f₁ path
  · exact puts_appendBytes f₁ path b

theorem sameConditions_writeBytes (h : f.writeBytes path b = (f', done)) : SameConditions f f' :=
  writeBytes_keeps h (.refl f) fun _ _ hputs hsame => hsame.trans hputs.sameConditions

/-- What was written can be read under the same path. -/
theorem writeBytes_bytes? (h : f.writeBytes path b = (f', true)) : f'.bytes? path = some b := by
  obtain ⟨f₁, hcreated, h⟩ := inTurn_cons_eq_true_iff.mp h
  obtain ⟨f₂, happended, hdone⟩ := inTurn_cons_eq_true_iff.mp h
  obtain rfl := inTurn_nil_eq_true_iff.mp hdone
  obtain ⟨before, hbefore, hafter⟩ := appendBytes_bytes? happended
  rw [createFile_bytes? hcreated, Option.some.injEq] at hbefore
  rw [hafter, ← hbefore, ByteArray.empty_append]

/-- The files while a file is on its way. -/
theorem sameDirectories_remove (hplace : f.place? path = some place) (hb : f.bytes? path = some b) :
    SameDirectories f { f with root := f.root.remove place } := by
  have hholds := holds_of_bytes? hplace hb
  refine ⟨fun p => ?_, rfl⟩
  rw [Bool.eq_iff_iff, isDirectoryAt_iff_seen?, isDirectoryAt_iff_seen?]
  obtain heq | ⟨rfl, hnone⟩ := Entry.seen?_remove_cases hholds p
  · rw [heq]
  · rw [hnone, holds_iff_seen?.mp hholds]
    simp

/-- All that moving can do: nothing, or the file is written elsewhere once it is removed. -/
theorem moveFile_cases (h : f.moveFile source target = (f', done)) :
    (done = false ∧ f' = f) ∨ ∃ place b, done = true ∧ f.place? source = some place ∧
      f.bytes? source = some b ∧ (∃ there, f.place? target = some there ∧ f.system.movesFile place there) ∧
      putFile { f with root := f.root.remove place } target b = (f', true) := by
  unfold moveFile at h
  split at h
  · rename_i b place there hb hplace hthere
    split at h
    · rename_i hmoves
      split at h
      rename_i moved written hmoved
      split at h
      · rename_i hwritten
        cases h
        exact .inr ⟨place, b, rfl, hplace, hb, ⟨there, hthere, hmoves⟩, by rw [hmoved, hwritten]⟩
      · cases h
        exact .inl ⟨rfl, rfl⟩
    · cases h
      exact .inl ⟨rfl, rfl⟩
  · cases h
    exact .inl ⟨rfl, rfl⟩

theorem sameConditions_moveFile (h : f.moveFile source target = (f', done)) : SameConditions f f' := by
  obtain ⟨-, rfl⟩ | ⟨place, bytes, -, hplace, hbytes, -, hwrite⟩ := moveFile_cases h
  · exact .refl f'
  · have hsystem := system_putFile hwrite
    exact ⟨(sameDirectories_remove hplace hbytes).trans (sameDirectories_putFile hwrite), hsystem⟩

/-- What made one move succeed makes another succeed, once there is something to move. -/
theorem moveFile_succeeds (h : f.moveFile source target = (f₁, true)) (hsame : SameConditions f f₂)
    (hb : f₂.bytes? source = some b) : (f₂.moveFile source target).2 = true := by
  obtain ⟨hfalse, -⟩ | ⟨place, bytes, -, hplace, hbytes, ⟨there, hthere, hmoves⟩, hwrite⟩ := moveFile_cases h
  · cases hfalse
  · have hplace₂ : f₂.place? source = some place := by rw [hsame.place?, hplace]
    have hthere₂ : f₂.place? target = some there := by rw [hsame.place?, hthere]
    have hmoves₂ : f₂.system.movesFile place there := by rwa [hsame.system]
    have hremoved := ((sameDirectories_remove hplace hbytes).symm.trans hsame.toSameDirectories).trans
      (sameDirectories_remove hplace₂ hb)
    have hagain := putFile_succeeds hremoved target bytes b
    rw [hwrite] at hagain
    simp only [moveFile, hb, hplace₂, hthere₂, hmoves₂, hagain, if_true]

theorem moveFile_holds (h : f.moveFile source target = (f', done)) (hq : f'.Holds q b) :
    f.Holds q b ∨ f.bytes? source = some b := by
  obtain ⟨-, rfl⟩ | ⟨place, c, -, hplace, hc, -, hwrite⟩ := moveFile_cases h
  · exact .inl hq
  · rcases putFile_holds hwrite hq with ⟨rfl, -⟩ | hremoved
    · exact .inr hc
    · rw [holds_iff_seen?] at hremoved ⊢
      obtain heq | ⟨-, hnone⟩ := Entry.seen?_remove_cases (holds_of_bytes? hplace hc) q
      · exact .inl (heq ▸ hremoved)
      · cases hnone.symm.trans hremoved

theorem moveFile_bytes? (h : f.moveFile source target = (f', true)) :
    f'.bytes? target = f.bytes? source := by
  obtain ⟨hfalse, -⟩ | ⟨place, bytes, -, -, hbytes, -, hwrite⟩ := moveFile_cases h
  · cases hfalse
  · rw [putFile_bytes? hwrite, hbytes]

end StructureGraph.Files
