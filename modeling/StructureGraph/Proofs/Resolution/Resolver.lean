import StructureGraph.Proofs.Files.Place
import StructureGraph.Resolution.Frequency

namespace StructureGraph.Resolution

open StructureGraph.Files.Path (EndsInName steps)
open StructureGraph.Java
open StructureGraph.Text (segments)

variable {files : Files} {path path' : String}

theorem toOption_ofText (path path' text : String) :
    (CompilationUnit.ofText path text).toOption = (CompilationUnit.ofText path' text).toOption := by
  simp only [CompilationUnit.ofText]
  cases Syntax.parse? text <;> rfl

/-- Paths that mean the same give the same unit. -/
theorem loadUnit?_congr_steps (h : EndsInName path) (h' : EndsInName path')
    (hsteps : steps path = steps path') : loadUnit? files path = loadUnit? files path' := by
  have hplace := Files.place?_congr_steps h h' hsteps files
  simp only [loadUnit?, Files.text?, Files.bytes?, Files.entry?, hplace, toOption_ofText path path']

theorem endsInName_typeFile (directory : String) (name : List String) :
    EndsInName (typeFile directory name) := by
  have hname : EndsInName (name.getLastD "" ++ ".java") :=
    Files.Path.endsInName_extension (by decide) (by decide) _
  exact hname.join _

namespace Units

/-- The unit that is given for a path, remembered or read. -/
def unit? (files : Files) (units : Units) (path : String) : Option CompilationUnit :=
  (units.load files path).1

private theorem unit?_eq (files : Files) (units : Units) (path : String) :
    unit? files units path = units[steps path]?.getD (loadUnit? files path) := by
  rw [unit?, load]
  cases units[steps path]? <;> rfl

theorem unit?_empty (files : Files) (path : String) : unit? files ∅ path = loadUnit? files path := by
  simp [unit?_eq]

/-- A unit that is loaded stays the one that is given for each path. -/
theorem unit?_load (units : Units) (h : EndsInName path) (h' : EndsInName path') :
    unit? files (units.load files path).2 path' = unit? files units path' := by
  rw [load]
  split
  · rfl
  · rename_i hunit
    rw [unit?_eq, unit?_eq, Std.HashMap.getElem?_insert]
    split
    · rename_i hsteps
      replace hsteps := beq_iff_eq.mp hsteps
      rw [← hsteps, hunit]
      exact loadUnit?_congr_steps h h' hsteps
    · rfl

/-- The type declared by the unit that is given for its file. -/
def declared? (files : Files) (units : Units) (directory : String) (name : List String)
    (fileNames : Nat) : Option FoundType :=
  (unit? files units (typeFile directory (name.take fileNames))).bind (typeOf? name fileNames)

private theorem declared?_congr {units units' : Units}
    (h : ∀ path, EndsInName path → unit? files units path = unit? files units' path) :
    declared? files units = declared? files units' := by
  funext directory name n
  rw [declared?, declared?, h _ (endsInName_typeFile _ _)]

private theorem findType_spec (files : Files) (units : Units) (directory : String) (name : List String)
    (ns : List Nat) :
    (Units.findType files directory name ns units).1 =
        ns.findSome? (declared? files units directory name) ∧
      ∀ path, EndsInName path →
        unit? files (Units.findType files directory name ns units).2 path = unit? files units path := by
  induction ns generalizing units with
  | nil => exact ⟨rfl, fun _ _ => rfl⟩
  | cons n ns ih =>
    have hload : ∀ path, EndsInName path →
        unit? files (units.load files (typeFile directory (name.take n))).2 path = unit? files units path :=
      fun path => unit?_load units (endsInName_typeFile directory (name.take n))
    rw [Units.findType, List.findSome?_cons, declared?, unit?]
    cases hloaded : units.load files (typeFile directory (name.take n)) with
    | mk unit units' =>
      rw [hloaded] at hload
      obtain ⟨htype, hunits⟩ := ih units'
      rw [declared?_congr hload] at htype
      dsimp only
      cases unit.bind (typeOf? name n) with
      | some t => exact ⟨rfl, hload⟩
      | none => exact ⟨htype, fun path hpath => (hunits path hpath).trans (hload path hpath)⟩

end Units

namespace Context

def type? (files : Files) (c : Context) (name : String) : Option FoundType := (c.findType files name).1

private theorem type?_findType (files : Files) (c : Context) (name other : String) :
    (c.findType files name).2.type? files other = c.type? files other := by
  cases c with
  | directory path units =>
    let names := segments '.' name
    have hunits := (Units.findType_spec files units path names (fileLengths names)).2
    simp only [type?, findType, (Units.findType_spec _ _ _ _ _).1]
    rw [Units.declared?_congr hunits]
  | builtin => rfl

private theorem type?_ofOrigin (files : Files) (o : Origin) (name : String) :
    (ofOrigin o).type? files name = o.find? files name := by
  cases o with
  | directory path =>
    have hdeclared : Units.declared? files ∅ = declaredIn? files := by
      funext directory name n
      rw [Units.declared?, declaredIn?, Units.unit?_empty]
    simp only [type?, findType, ofOrigin, (Units.findType_spec _ _ _ _ _).1]
    rw [hdeclared]
    rfl
  | builtin => rfl

private theorem findAmong_spec (files : Files) (name : String) (cs : List Context) :
    (findAmong files name cs).1 = cs.findSome? (·.type? files name) ∧
      ∀ other, (findAmong files name cs).2.findSome? (·.type? files other) =
        cs.findSome? (·.type? files other) := by
  induction cs with
  | nil => exact ⟨rfl, fun _ => rfl⟩
  | cons c cs ih =>
    have hfirst := type?_findType files c name
    rw [findAmong, List.findSome?_cons, type?]
    split
    · rename_i t c' hc'
      rw [hc'] at hfirst ⊢
      refine ⟨rfl, fun other => ?_⟩
      rw [List.findSome?_cons, List.findSome?_cons, hfirst]
    · rename_i c' hc'
      rw [hc'] at hfirst ⊢
      refine ⟨ih.1, fun other => ?_⟩
      rw [List.findSome?_cons, List.findSome?_cons, hfirst, ih.2]

end Context

namespace Resolver

variable {α : Type}

/-- What a resolver answers. -/
def type? (files : Files) (r : Resolver) (name : String) : Option FoundType :=
  (r.findType files name).1

private theorem type?_eq (files : Files) (r : Resolver) (name : String) :
    r.type? files name = r.types[name]?.getD (r.contexts.findSome? (·.type? files name)) := by
  rw [type?, findType]
  cases r.types[name]? with
  | some t => rfl
  | none => exact (Context.findAmong_spec files name r.contexts).1

/-- To answer one question changes the answer to none. -/
theorem type?_findType (files : Files) (r : Resolver) (name : String) :
    (r.findType files name).2.type? files = r.type? files := by
  funext other
  rw [findType]
  split
  · rfl
  · rename_i hname
    obtain ⟨hfound, hothers⟩ := Context.findAmong_spec files name r.contexts
    rw [type?_eq, type?_eq, Std.HashMap.getElem?_insert, hothers]
    split
    · rename_i heq
      rw [← beq_iff_eq.mp heq, hname]
      exact hfound
    · rfl

theorem type?_ofOrigins (files : Files) (origins : List Origin) :
    (ofOrigins origins).type? files = findType? files origins := by
  funext name
  simp [type?_eq, ofOrigins, Inquiry.Memory.empty, findType?, List.findSome?_map, Function.comp_def,
    Context.type?_ofOrigin]

/-- An inquiry ends as it does where all it asks is answered at once, and changes no answer. -/
theorem pursue_spec (files : Files) (r : Resolver) (q : Inquiry FoundType α) :
    (r.pursue files q).1 = q.run (r.type? files) ∧
      (r.pursue files q).2.type? files = r.type? files := by
  induction q generalizing r with
  | done a => exact ⟨rfl, rfl⟩
  | ask name next ih =>
    have hrest := ih (r.type? files name) (r.findType files name).2
    rw [type?_findType] at hrest
    exact hrest

/-- What a resolver is used for. -/
inductive Use where
  | type (name : String)
  | call (unit : CompilationUnit) (index : Nat) (body : Method) (call : Call)
  | unit (prefixes : List String) (unit : CompilationUnit)

def use (files : Files) (r : Resolver) : Use → Resolver
  | .type name => (r.findType files name).2
  | .call u index body c => (r.pursue files (resolveAt u index body c)).2
  | .unit prefixes u => (r.pursue files (tallyUnit prefixes u)).2

/-- The resolver after it was used. -/
def after (files : Files) (r : Resolver) (uses : List Use) : Resolver := uses.foldl (use files) r

private theorem type?_use (files : Files) (r : Resolver) (x : Use) :
    (r.use files x).type? files = r.type? files := by
  cases x with
  | type name => exact type?_findType files r name
  | call u index body c => exact (pursue_spec files r _).2
  | unit prefixes u => exact (pursue_spec files r _).2

theorem type?_after (files : Files) (r : Resolver) (uses : List Use) :
    (r.after files uses).type? files = r.type? files := by
  induction uses generalizing r with
  | nil => rfl
  | cons x uses ih => exact (ih (r.use files x)).trans (type?_use files r x)

theorem pursue_ofOrigins (files : Files) (origins : List Origin) (q : Inquiry FoundType α) :
    ((ofOrigins origins).pursue files q).1 = q.run (findType? files origins) := by
  rw [(pursue_spec files _ q).1, type?_ofOrigins]

/-- Whatever a resolver was used for, an inquiry ends as it does without any memory. -/
theorem pursue_after (files : Files) (origins : List Origin) (uses : List Use)
    (q : Inquiry FoundType α) :
    (((ofOrigins origins).after files uses).pursue files q).1 = q.run (findType? files origins) := by
  rw [(pursue_spec files _ q).1, type?_after, type?_ofOrigins]

end Resolver

end StructureGraph.Resolution
