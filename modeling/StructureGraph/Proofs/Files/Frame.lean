import StructureGraph.Proofs.Files.Tree

namespace StructureGraph.Files

open StructureGraph.Files.Path (IsName Step steps)

variable {f f' : Files} {place next p q : List String} {path source target : String} {b : ByteArray}
  {s : Step} {ss : List Step} {done : Bool}

theorem MadeStep.extends (h : MadeStep f place s f' next) : Extends (fun _ => False) f f' :=
  ⟨h.workingDirectory, fun _ hp => h.isDirectoryAt hp, fun _ _ _ => h.holds_iff⟩

private theorem isName_of_isDirectoryAt (hf : f.root.isProper) (h : f.isDirectoryAt place) :
    ∀ n ∈ place, IsName n := by
  obtain ⟨es, hes⟩ := isDirectoryAt_iff.mp h
  exact (Entry.isProper_descend? hf hes).2

theorem MadeStep.isProper (h : MadeStep f place s f' next) (hf : f.root.isProper)
    (hname : ∀ n, s = .name n → IsName n) : f'.root.isProper := by
  cases h with
  | make hfree hplace _ =>
    refine Entry.isProper_put (fun n hn => ?_) rfl hf
    rcases List.mem_append.mp hn with hn | hn
    · exact isName_of_isDirectoryAt hf hplace n hn
    · rw [List.mem_singleton.mp hn]
      exact hname _ rfl
  | _ => exact hf

theorem extends_makeSteps (h : f.makeSteps place ss = (f', done)) : Extends (fun _ => False) f f' :=
  makeSteps_keeps (P := Extends (fun _ => False) f) h (.refl _ f)
    fun _ _ _ _ _ _ hs hf => hf.trans hs.extends

theorem isProper_makeSteps (hf : f.root.isProper) (hnames : ∀ n, .name n ∈ ss → IsName n)
    (h : f.makeSteps place ss = (f', done)) : f'.root.isProper :=
  makeSteps_keeps (P := fun f₁ => f₁.root.isProper) h hf fun _ _ _ _ _ hmem hs hf₁ =>
    hs.isProper hf₁ fun n hn => hnames n (hn ▸ hmem)

theorem extends_putFile (h : f.putFile path b = (f', done)) :
    Extends (· = f.destination path) f f' := by
  have hsame := sameDirectories_putFile h
  refine ⟨hsame.workingDirectory, fun p hp => by rwa [hsame.isDirectoryAt], fun q c hq => ?_⟩
  obtain ⟨-, rfl⟩ | ⟨p, -, hplace, -, -, hseen⟩ := seen?_putFile_cases h
  · exact Iff.rfl
  · rw [holds_iff_seen?, holds_iff_seen?, hseen, if_neg (by rwa [eq_destination hplace])]

/-- What is no directory is found under a name. -/
theorem exists_fileName? (h : f.place? path = some q) (hne : q ≠ []) (hfree : f.isDirectoryAt q = false) :
    ∃ n, Path.fileName? path = some n := by
  have hfollow := foldlM_follow_of_place? h
  rcases List.eq_nil_or_concat (steps path) with hnil | ⟨before, last, hsteps⟩
  · have hpath := ne_empty_of_place? h
    rw [Path.steps_eq_stepsOf hpath] at hnil
    exact (Path.stepsOf_ne_nil (Text.segments_ne_nil path) hnil).elim
  · rw [List.concat_eq_append] at hsteps
    rw [hsteps, List.foldlM_append] at hfollow
    obtain ⟨parent, -, hlast⟩ := Option.bind_eq_some_iff.mp hfollow
    rw [List.foldlM_cons] at hlast
    obtain ⟨q', hstep, hq'⟩ := Option.bind_eq_some_iff.mp hlast
    obtain rfl := Option.some.inj hq'
    cases last with
    | name n => exact ⟨n, Path.fileName?_of_steps hsteps⟩
    | root => exact (hne (Option.some.inj hstep).symm).elim
    | here =>
      rw [follow, Option.ite_none_right_eq_some] at hstep
      rw [← Option.some.inj hstep.2, hstep.1] at hfree
      cases hfree
    | up =>
      rw [follow, Option.ite_none_right_eq_some] at hstep
      have hup : f.isDirectoryAt parent.dropLast := by
        rcases List.eq_nil_or_concat parent with rfl | ⟨above, n, rfl⟩
        · exact hstep.1
        · rw [List.concat_eq_append] at hstep ⊢
          rw [List.dropLast_concat]
          exact isDirectoryAt_of_append hstep.1
      rw [← Option.some.inj hstep.2, hup] at hfree
      cases hfree

private theorem isProper_putFile (hf : f.root.isProper) (h : f.putFile path b = (f', done)) :
    f'.root.isProper := by
  obtain ⟨-, rfl⟩ | ⟨q, -, hplace, hne, hfree, hparent, rfl⟩ := putFile_cases h
  · exact hf
  · obtain ⟨n, hn⟩ := exists_fileName? hplace hne hfree
    obtain ⟨parent, rfl, hdirectory⟩ := place_of_fileName? hn hplace
    refine Entry.isProper_put (fun m hm => ?_) rfl hf
    rcases List.mem_append.mp hm with hm | hm
    · exact isName_of_isDirectoryAt hf hdirectory m hm
    · rw [List.mem_singleton.mp hm]
      exact @Path.isName_of_mem_steps path n (by rw [Path.steps_of_fileName? hn]; simp)

theorem Puts.extends (h : Puts f path f') : Extends (· = f.destination path) f f' := by
  cases h with
  | nothing => exact .refl _ f
  | file h => exact extends_putFile h

theorem Puts.isProper (h : Puts f path f') (hf : f.root.isProper) : f'.root.isProper := by
  cases h with
  | nothing => exact hf
  | file h => exact isProper_putFile hf h

/-- The files without one of them. -/
theorem extends_remove (hplace : f.place? path = some place) (hb : f.bytes? path = some b) :
    Extends (· = place) f { f with root := f.root.remove place } := by
  have hsame := sameDirectories_remove hplace hb
  refine ⟨hsame.workingDirectory, fun p hp => by rwa [hsame.isDirectoryAt], fun q c hq => ?_⟩
  obtain heq | ⟨hplace, -⟩ := Entry.seen?_remove_cases (holds_of_bytes? hplace hb) q
  · rw [holds_iff_seen?, holds_iff_seen?, heq]
  · exact (hq hplace).elim

theorem extends_moveFile (h : f.moveFile source target = (f', done)) :
    Extends (fun p => p = f.destination source ∨ p = f.destination target) f f' := by
  obtain ⟨-, rfl⟩ | ⟨place, b, -, hplace, hb, -, hwrite⟩ := moveFile_cases h
  · exact .refl _ f'
  · have hremove := extends_remove hplace hb
    rw [eq_destination hplace] at hremove hwrite
    exact (hremove.mono fun _ => .inl).trans ((extends_putFile hwrite).mono fun _ => .inr)

theorem isProper_moveFile (hf : f.root.isProper) (h : f.moveFile source target = (f', done)) :
    f'.root.isProper := by
  obtain ⟨-, rfl⟩ | ⟨place, b, -, -, -, -, hwrite⟩ := moveFile_cases h
  · exact hf
  · exact isProper_putFile (Entry.isProper_remove hf) hwrite

/-- The same directories, and at all other places the same files. -/
structure DifferAt (p : List String) (f f' : Files) : Prop extends SameDirectories f f' where
  holds : ∀ q b, q ≠ p → (f'.Holds q b ↔ f.Holds q b)

namespace DifferAt

variable {f₁ f₂ f₁' : Files}

theorem symm (h : DifferAt p f f') : DifferAt p f' f where
  toSameDirectories := h.toSameDirectories.symm
  holds q b hq := (h.holds q b hq).symm

theorem «extends» (h : DifferAt p f f') : Extends (· = p) f f' where
  workingDirectory := h.workingDirectory
  isDirectoryAt q hq := by rwa [h.isDirectoryAt]
  holds q b hq := h.holds q b hq

private theorem seen?_eq (h : DifferAt p f f') (hq : q ≠ p) : f'.root.seen? q = f.root.seen? q := by
  refine Option.ext fun c => ?_
  cases c with
  | none =>
    have hdirectory := h.isDirectoryAt q
    rw [Bool.eq_iff_iff, isDirectoryAt_iff_seen?, isDirectoryAt_iff_seen?] at hdirectory
    exact hdirectory
  | some b =>
    have hholds := h.holds q b hq
    rwa [holds_iff_seen?, holds_iff_seen?] at hholds

private theorem of_seen? (hwork : f'.workingDirectory = f.workingDirectory)
    (hdirectory : f'.isDirectoryAt p = f.isDirectoryAt p)
    (hseen : ∀ q, q ≠ p → f'.root.seen? q = f.root.seen? q) : DifferAt p f f' where
  workingDirectory := hwork
  isDirectoryAt q := by
    by_cases hq : q = p
    · rw [hq, hdirectory]
    · rw [Bool.eq_iff_iff, isDirectoryAt_iff_seen?, isDirectoryAt_iff_seen?, hseen q hq]
  holds q b hq := by rw [holds_iff_seen?, holds_iff_seen?, hseen q hq]

theorem refl (p : List String) (f : Files) : DifferAt p f f := ⟨.refl f, fun _ _ _ => Iff.rfl⟩

theorem trans (h₁ : DifferAt p f f₁) (h₂ : DifferAt p f₁ f₂) : DifferAt p f f₂ where
  toSameDirectories := h₁.toSameDirectories.trans h₂.toSameDirectories
  holds q b hq := (h₂.holds q b hq).trans (h₁.holds q b hq)

private theorem of_puts (h : Puts f path f') : DifferAt (f.destination path) f f' where
  toSameDirectories := h.sameConditions.toSameDirectories
  holds q b hq := h.extends.holds q b hq

theorem of_writeBytes (h : f.writeBytes path b = (f', done)) : DifferAt (f.destination path) f f' := by
  refine writeBytes_keeps h (.refl _ f) fun f₁ f₂ hputs hf₁ => hf₁.trans ?_
  rw [← hf₁.extends.destination]
  exact of_puts hputs

/-- A step that does not make the place itself a directory can be made in both. -/
theorem exists_makeStep (h : DifferAt p f₁ f₂) (hsystem : f₂.system = f₁.system)
    (hs : MadeStep f₁ place s f₁' next) (hp : f₁'.isDirectoryAt p = false) :
    ∃ f₂', f₂.makeStep place s = some (f₂', next) ∧ DifferAt p f₁' f₂' := by
  cases hs with
  | root => exact ⟨f₂, rfl, h⟩
  | here hplace => exact ⟨f₂, by simp only [makeStep, h.isDirectoryAt, hplace, if_true], h⟩
  | up hplace => exact ⟨f₂, by simp only [makeStep, h.isDirectoryAt, hplace, if_true], h⟩
  | enter hthere => exact ⟨f₂, by simp only [makeStep, h.isDirectoryAt, hthere, if_true], h⟩
  | @make n hfree hplace hmakes =>
    have hne : place ++ [n] ≠ p := by
      rintro rfl
      rw [isDirectoryAt_put_directory hfree hplace] at hp
      cases hp
    have hfree₂ : f₂.root.descend? (place ++ [n]) = none := by
      rwa [descend?_eq_none_iff_seen?, h.seen?_eq hne, ← descend?_eq_none_iff_seen?]
    have hplace₂ : f₂.isDirectoryAt place := by rwa [h.isDirectoryAt]
    have hnot₂ : f₂.isDirectoryAt (place ++ [n]) = false := by
      rw [isDirectoryAt, hfree₂]
      rfl
    have hmake : f₂.makeStep place (.name n) =
        some ({ f₂ with root := f₂.root.put (place ++ [n]) (.directory []) }, place ++ [n]) := by
      simp [makeStep, hnot₂, hfree₂, hplace₂, hsystem, hmakes]
    refine ⟨_, hmake, of_seen? h.workingDirectory ?_ ?_⟩
    · rw [Bool.eq_iff_iff, isDirectoryAt_iff_seen?, isDirectoryAt_iff_seen?,
        seen?_put_directory hfree hplace, seen?_put_directory hfree₂ hplace₂, if_neg hne.symm,
        if_neg hne.symm, ← isDirectoryAt_iff_seen?, ← isDirectoryAt_iff_seen?, h.isDirectoryAt]
    · intro q hq
      rw [seen?_put_directory hfree hplace, seen?_put_directory hfree₂ hplace₂, h.seen?_eq hq]

theorem exists_makeSteps (h : DifferAt p f₁ f₂) (hsystem : f₂.system = f₁.system)
    (hs : f₁.makeSteps place ss = (f₁', true)) (hp : f₁'.isDirectoryAt p = false) :
    ∃ f₂', f₂.makeSteps place ss = (f₂', true) ∧ DifferAt p f₁' f₂' := by
  induction ss generalizing f₁ f₂ place with
  | nil =>
    cases hs
    exact ⟨f₂, rfl, h⟩
  | cons s ss ih =>
    obtain ⟨f, next, hstep, hrest⟩ := makeSteps_cons hs
    have hfree : f.isDirectoryAt p = false := by
      rw [← Bool.not_eq_true] at hp ⊢
      exact fun hf => hp (isDirectoryAt_makeSteps hrest hf)
    obtain ⟨f', hstep', h'⟩ := h.exists_makeStep hsystem hstep hfree
    have hsystem' : f'.system = f.system := by
      rw [(madeStep_of_eq_some hstep').system, hsystem, hstep.system]
    obtain ⟨f₂', hrest', hdiffer⟩ := ih h' hsystem' hrest
    exact ⟨f₂', by rw [makeSteps, hstep']; exact hrest', hdiffer⟩

end DifferAt

end StructureGraph.Files
