import Mathlib.Algebra.Ring.Nat
import StructureGraph.Proofs.Resolution.Resolver

namespace StructureGraph.Resolution

open StructureGraph.Java

namespace CallCounts

/-- How many calls are counted in all. -/
def total (c : CallCounts) : Nat := (c.entries.map Prod.snd).sum

theorem count_add (c : CallCounts) (name other : String) (n : Nat) :
    (c.add name n).count other = c.count other + if name = other then n else 0 := by
  rw [count, add, Table.get?_insert]
  split
  · rename_i heq
    rw [Option.getD_some, heq]
  · rfl

theorem mem_names_add (c : CallCounts) (name other : String) (n : Nat) :
    other ∈ (c.add name n).names ↔ name = other ∨ other ∈ c.names := by
  rw [Table.mem_names_iff, Table.mem_names_iff, add, Table.get?_insert]
  split
  · rename_i heq
    simp [heq]
  · rename_i hne
    simp [hne]

/-- A value that is put among sorted entries adds to their sum, less what it replaces. -/
theorem sum_insertEntry (name : String) (value : Nat) :
    ∀ {es : List (String × Nat)}, es.Pairwise (·.1 < ·.1) →
      ((Table.insertEntry name value es).map Prod.snd).sum +
        ((es.find? (·.1 == name)).map Prod.snd).getD 0 = (es.map Prod.snd).sum + value
  | [], _ => by simp [Table.insertEntry]
  | e :: es, h => by
    obtain ⟨he, hes⟩ := List.pairwise_cons.mp h
    rw [Table.insertEntry]
    split
    · rename_i hlt
      have hnone : (e :: es).find? (·.1 == name) = none := by
        rw [List.find?_eq_none]
        intro d hd heq
        have hname : d.1 = name := by simpa using heq
        have hle : name < d.1 := by
          rcases List.mem_cons.mp hd with rfl | hd
          · exact hlt
          · exact String.lt_trans hlt (he d hd)
        exact String.lt_irrefl _ (hname ▸ hle)
      rw [hnone]
      simp only [List.map_cons, List.sum_cons, Option.map_none, Option.getD_none]
      omega
    · split
      · rename_i heq
        simp only [heq, List.map_cons, List.sum_cons, List.find?_cons_of_pos, beq_self_eq_true,
          Option.map_some, Option.getD_some]
        omega
      · rename_i hne
        have hrest := sum_insertEntry name value hes
        have hskip : (e :: es).find? (·.1 == name) = es.find? (·.1 == name) :=
          List.find?_cons_of_neg (by simpa using Ne.symm hne)
        rw [hskip]
        simp only [List.map_cons, List.sum_cons]
        omega

theorem total_add (c : CallCounts) (name : String) (n : Nat) :
    (c.add name n).total = c.total + n := by
  have hsum := sum_insertEntry name (c.count name + n) c.sorted
  have hold : ((c.entries.find? (·.1 == name)).map Prod.snd).getD 0 = c.count name := rfl
  have hnew : (c.add name n).total =
      ((Table.insertEntry name (c.count name + n) c.entries).map Prod.snd).sum := rfl
  rw [hold, ← hnew, ← total] at hsum
  omega

end CallCounts

namespace Outcome

/-- The call means a method of the standard library. -/
def isExcluded (prefixes : List String) : Outcome → Bool
  | resolved signature => isStandard prefixes signature
  | unresolved _ => false

def isUnresolved : Outcome → Bool
  | resolved _ => false
  | unresolved _ => true

end Outcome

namespace Tally

variable (prefixes : List String) (t : Tally) (r : Outcome) (signature : String)

private theorem count_record :
    (t.record prefixes r).counts.count signature = t.counts.count signature +
      if r = .resolved signature ∧ isStandard prefixes signature = false then 1 else 0 := by
  cases r with
  | unresolved obstacle => simp [record]
  | resolved found =>
    rw [record]
    by_cases hfound : found = signature
    · subst hfound
      split
      · rename_i hstandard
        simp [hstandard]
      · rename_i hstandard
        simp [hstandard, CallCounts.count_add]
    · split <;> simp [hfound, CallCounts.count_add]

private theorem mem_names_record :
    signature ∈ (t.record prefixes r).counts.names ↔
      (r = .resolved signature ∧ isStandard prefixes signature = false) ∨
        signature ∈ t.counts.names := by
  cases r with
  | unresolved obstacle => simp [record]
  | resolved found =>
    rw [record]
    by_cases hfound : found = signature
    · subst hfound
      split
      · rename_i hstandard
        simp [hstandard]
      · rename_i hstandard
        simp [hstandard, CallCounts.mem_names_add]
    · split <;> simp [hfound, CallCounts.mem_names_add]

private theorem excluded_record :
    (t.record prefixes r).excluded = t.excluded + if r.isExcluded prefixes then 1 else 0 := by
  cases r with
  | unresolved obstacle => rfl
  | resolved found =>
    rw [record, Outcome.isExcluded]
    split <;> rfl

private theorem unresolved_record :
    (t.record prefixes r).unresolved = t.unresolved + if r.isUnresolved then 1 else 0 := by
  cases r with
  | unresolved obstacle => rfl
  | resolved found =>
    rw [record]
    split <;> rfl

/-- How many calls the tally is about. -/
def size (t : Tally) : Nat := t.counts.total + t.excluded + t.unresolved

/-- One more call is recorded in one place. -/
theorem size_record : (t.record prefixes r).size = t.size + 1 := by
  cases r with
  | unresolved obstacle =>
    simp only [record, size]
    omega
  | resolved found =>
    rw [record]
    split
    · simp only [size]
      omega
    · simp only [size, CallCounts.total_add]
      omega

/-- The tally says what became of calls with these outcomes. -/
structure Accounts (rs : List Outcome) (t : Tally) : Prop where
  count : ∀ signature, t.counts.count signature =
    if isStandard prefixes signature then 0 else rs.count (.resolved signature)
  mem_names : ∀ signature, signature ∈ t.counts.names ↔
    isStandard prefixes signature = false ∧ 0 < rs.count (.resolved signature)
  excluded : t.excluded = rs.countP (Outcome.isExcluded prefixes)
  unresolved : t.unresolved = rs.countP Outcome.isUnresolved
  size : t.size = rs.length

variable {prefixes t}

theorem accounts_empty : Accounts prefixes [] .empty where
  count signature := by
    rw [List.count_nil, ite_self]
    rfl
  mem_names signature := by simp [empty, Table.names, Table.empty]
  excluded := rfl
  unresolved := rfl
  size := rfl

theorem Accounts.record {rs : List Outcome} (h : Accounts prefixes rs t) (r : Outcome) :
    Accounts prefixes (rs ++ [r]) (t.record prefixes r) where
  count signature := by
    rw [count_record, h.count, List.count_append, List.count_singleton]
    cases isStandard prefixes signature <;> simp
  mem_names signature := by
    rw [mem_names_record, h.mem_names, List.count_append, List.count_singleton]
    by_cases hr : r = .resolved signature
    · simp only [hr, true_and, beq_self_eq_true, if_true, Nat.succ_pos, and_true, or_iff_left_iff_imp]
      exact And.left
    · simp [hr]
  excluded := by rw [excluded_record, h.excluded, List.countP_append, List.countP_singleton]
  unresolved := by
    rw [unresolved_record, h.unresolved, List.countP_append, List.countP_singleton]
  size := by rw [size_record, h.size, List.length_append, List.length_singleton]

theorem Accounts.foldl {rs : List Outcome} (h : Accounts prefixes rs t) (more : List Outcome) :
    Accounts prefixes (rs ++ more) (more.foldl (Tally.record prefixes) t) := by
  induction more generalizing rs t with
  | nil => simpa using h
  | cons r more ih =>
    rw [List.foldl_cons, List.append_cons]
    exact ih (h.record r)

end Tally

private theorem run_resolveAll (find : String → Option FoundType) (places : List (Site × Call)) :
    (resolveAll places).run find = places.map fun x => (x.1.resolve x.2).run find := by
  induction places with
  | nil => rfl
  | cons x places ih =>
    rw [resolveAll, Inquiry.run_bind, Inquiry.run_bind, Inquiry.run_pure, ih, List.map_cons]

theorem accounts_tallyUnit (find : String → Option FoundType) (prefixes : List String)
    (u : CompilationUnit) :
    Tally.Accounts prefixes ((sites u).map fun x => (x.1.resolve x.2).run find)
      ((tallyUnit prefixes u).run find) := by
  rw [tallyUnit, Inquiry.run_bind, Inquiry.run_pure, run_resolveAll]
  exact Tally.accounts_empty.foldl _

/-- The tally of a file is that of its unit, or says what is wrong with it. -/
theorem run_tallyFile (find : String → Option FoundType) (files : Files) (prefixes : List String)
    (path : String) :
    (tallyFile files prefixes path).run find =
      match readUnit files path with
      | .ok u => ⟨path, (tallyUnit prefixes u).run find, none⟩
      | .error e => ⟨path, .empty, some e⟩ := by
  rw [tallyFile]
  cases readUnit files path with
  | ok u => rw [Inquiry.run_bind, Inquiry.run_pure]
  | error e => rfl

theorem path_run_tallyFile (find : String → Option FoundType) (files : Files)
    (prefixes : List String) (path : String) :
    ((tallyFile files prefixes path).run find).path = path := by
  rw [run_tallyFile]
  split <;> rfl

/-- How many calls of a body have a property. -/
def callsIn (u : CompilationUnit) (p : Site → Call → Bool) (d : TypeDeclaration) (m : Method) : Nat :=
  m.calls.countP (p ⟨u, d, m⟩)

/-- How many calls of a unit have a property: in its types those of each method, of each constructor
and of the initializer. -/
def countCalls (u : CompilationUnit) (p : Site → Call → Bool) : Nat :=
  (u.types.map fun d =>
    (d.methods.map (callsIn u p d)).sum + (d.constructors.map (callsIn u p d)).sum +
      callsIn u p d d.initializer).sum

/-- No body is left out and none is visited twice. -/
theorem countP_sites (u : CompilationUnit) (p : Site → Call → Bool) :
    (sites u).countP (fun x => p x.1 x.2) = countCalls u p := by
  have hbody : ∀ d m, (m.calls.map fun c => ((⟨u, d, m⟩ : Site), c)).countP
      (fun x => p x.1 x.2) = callsIn u p d m := fun d m => List.countP_map ..
  have htype : ∀ d : TypeDeclaration, (d.bodies.flatMap fun m => m.calls.map fun c =>
      ((⟨u, d, m⟩ : Site), c)).countP (fun x => p x.1 x.2) =
        (d.methods.map (callsIn u p d)).sum + (d.constructors.map (callsIn u p d)).sum +
          callsIn u p d d.initializer := by
    intro d
    rw [List.countP_flatMap, TypeDeclaration.bodies, List.map_append, List.map_append,
      List.sum_append, List.sum_append, List.map_singleton, List.sum_singleton]
    simp only [Function.comp_def, hbody]
  rw [sites, List.countP_flatMap, countCalls]
  simp only [Function.comp_def, htype]

/-- Each call of a unit is counted once, in the tally that a resolver makes, whatever it remembers: for
its signature, or as a call of the standard library, or as unresolved. What is the standard library
makes a difference only to whether a resolved call is counted or excluded. -/
theorem tallyUnit_accounts_for_calls (files : Files) (r : Resolver) (prefixes : List String)
    (u : CompilationUnit) :
    let outcome (s : Site) (c : Call) := (r.pursue files (s.resolve c)).1
    let tally (prefixes : List String) := (r.pursue files (tallyUnit prefixes u)).1
    let t := tally prefixes
    (∀ signature, isStandard prefixes signature = false →
      t.counts.count signature = countCalls u fun s c => outcome s c == .resolved signature) ∧
    (∀ signature, signature ∈ t.counts.names ↔ isStandard prefixes signature = false ∧
      0 < countCalls u fun s c => outcome s c == .resolved signature) ∧
    t.excluded = (countCalls u fun s c => (outcome s c).isExcluded prefixes) ∧
    t.unresolved = (countCalls u fun s c => (outcome s c).isUnresolved) ∧
    t.counts.total + t.excluded + t.unresolved = (countCalls u fun _ _ => true) ∧
    ∀ others, (tally others).unresolved = t.unresolved ∧
      (tally others).counts.total + (tally others).excluded = t.counts.total + t.excluded := by
  intro outcome tally t
  let outcomes := (sites u).map fun x => outcome x.1 x.2
  have haccounts : ∀ prefixes, Tally.Accounts prefixes outcomes (tally prefixes) := by
    intro prefixes
    simp only [outcomes, tally, outcome, (r.pursue_spec files _).1]
    exact accounts_tallyUnit (r.type? files) prefixes u
  have hcount : ∀ q : Outcome → Bool, outcomes.countP q = countCalls u fun s c => q (outcome s c) :=
    fun q => (List.countP_map ..).trans (countP_sites u fun s c => q (outcome s c))
  have h := haccounts prefixes
  have hall : t.size = countCalls u fun _ _ => true := by
    rw [h.size, ← hcount fun _ => true, List.countP_true]
  refine ⟨fun signature hsignature => ?_, fun signature => ?_, ?_, ?_, hall, fun others => ?_⟩
  · rw [h.count, hsignature, List.count, hcount]
    rfl
  · rw [h.mem_names, List.count, hcount]
  · rw [h.excluded, hcount]
  · rw [h.unresolved, hcount]
  · have hothers := haccounts others
    have hunresolved : (tally others).unresolved = t.unresolved :=
      hothers.unresolved.trans h.unresolved.symm
    have hsize : (tally others).size = t.size := hothers.size.trans h.size.symm
    rw [Tally.size, Tally.size] at hsize
    omega

end StructureGraph.Resolution
