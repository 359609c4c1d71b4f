import Mathlib.Data.List.Forall2
import StructureGraph.Proofs.Resolution.Steps

namespace StructureGraph.Resolution

open StructureGraph.Java

variable {R : FoundType → FoundType → Prop} {find find' : String → Option FoundType} {name : String}
  {arguments : List (Option String)} {u u' : CompilationUnit} {d d' : TypeDeclaration} {t t' : FoundType}

private theorem rel_findSome? (hfind : ∀ n, Option.Rel R (find n) (find' n)) (names : List String) :
    Option.Rel R (names.findSome? find) (names.findSome? find') := by
  induction names with
  | nil => exact .none
  | cons n names ih =>
    have hfirst := hfind n
    rw [List.findSome?_cons, List.findSome?_cons]
    generalize find n = found at hfirst ⊢
    generalize find' n = found' at hfirst ⊢
    cases hfirst with
    | some h => exact .some h
    | none => exact ih

theorem rel_run_writtenType? (hfind : ∀ n, Option.Rel R (find n) (find' n))
    (hnames : u.typeCandidates = u'.typeCandidates) (scope : List String) (written : String) :
    Option.Rel R ((writtenType? u scope written).run find)
      ((writtenType? u' scope written).run find') := by
  rw [writtenType?, writtenType?, ← hnames]
  split
  · exact .none
  · rw [Inquiry.run_first?, Inquiry.run_first?]
    exact rel_findSome? hfind _

theorem forall₂_toList {found found' : Option FoundType} (h : Option.Rel R found found') :
    List.Forall₂ R found.toList found'.toList := by
  cases h with
  | none => exact .nil
  | some h => exact .cons h .nil

theorem forall₂_filterMap {written? written?' : String → Option FoundType}
    (h : ∀ w, Option.Rel R (written? w) (written?' w)) (ws : List String) :
    List.Forall₂ R (ws.filterMap written?) (ws.filterMap written?') := by
  induction ws with
  | nil => exact .nil
  | cons w ws ih =>
    have hfirst := h w
    rw [List.filterMap_cons, List.filterMap_cons]
    generalize written? w = found at hfirst ⊢
    generalize written?' w = found' at hfirst ⊢
    cases hfirst with
    | none => exact ih
    | some h => exact .cons h ih

/-- Where the names that units may mean are the same, the supertypes that two declarations name alike
correspond. -/
theorem forall₂_parents (hfind : ∀ n, Option.Rel R (find n) (find' n))
    (hroot : R (.builtin .object) (.builtin .object)) (hnames : u.typeCandidates = u'.typeCandidates)
    (hpath : d.path = d'.path) (hsuperclass : d.superclass = d'.superclass)
    (hinterfaces : d.interfaces = d'.interfaces) :
    List.Forall₂ R ((FoundType.declared u d).parents find) ((FoundType.declared u' d').parents find') := by
  have hwritten := rel_run_writtenType? hfind hnames d.path
  have hclass : List.Forall₂ R (d.superclass.bind fun w => (writtenType? u d.path w).run find).toList
      (d.superclass.bind fun w => (writtenType? u' d.path w).run find').toList := by
    cases d.superclass with
    | none => exact .nil
    | some w =>
      rw [Option.bind_some, Option.bind_some]
      exact forall₂_toList (hwritten w)
  have hlast : List.Forall₂ R (if d.superclass = none then [FoundType.builtin .object] else [])
      (if d.superclass = none then [FoundType.builtin .object] else []) := by
    split
    · exact .cons hroot .nil
    · exact .nil
  simp only [FoundType.parents, ← hpath, ← hsuperclass, ← hinterfaces]
  exact List.rel_append (List.rel_append hclass (forall₂_filterMap hwritten d.interfaces)) hlast

/-- Types that correspond can stand for one another in a search. -/
structure Corresponds (find find' : String → Option FoundType) (name : String)
    (arguments : List (Option String)) (R : FoundType → FoundType → Prop) : Prop where
  qualifiedName_eq : ∀ {t t'}, R t t' → t.qualifiedName = t'.qualifiedName
  verdict_eq : ∀ {t t'}, R t t' → t.verdict name arguments = t'.verdict name arguments
  parents : ∀ {t t'}, R t t' → List.Forall₂ R (t.parents find) (t'.parents find')

namespace Corresponds

theorem run_search (h : Corresponds find find' name arguments R) {examined : List String}
    {pending pending' : List (FoundType × Nat)}
    (hpending : List.Forall₂ (fun x x' => R x.1 x'.1 ∧ x.2 = x'.2) pending pending') :
    (search name arguments examined pending).run find =
      (search name arguments examined pending').run find' := by
  -- The names of the waiting types and their distances are the same, so both searches take the same steps.
  fun_induction search name arguments examined pending generalizing pending' with
  | case1 examined =>
    cases hpending
    rw [search]
    rfl
  | case2 examined t distance rest hfar =>
    obtain _ | ⟨⟨ht, rfl⟩, hrest⟩ := hpending
    rw [search, if_pos hfar]
    rfl
  | case3 examined t distance rest hnear hseen ih =>
    obtain _ | ⟨⟨ht, rfl⟩, hrest⟩ := hpending
    rw [search, if_neg hnear, ← h.qualifiedName_eq ht, if_pos hseen]
    exact ih hrest
  | case4 examined t distance rest hnear hnew hverdict ih =>
    obtain _ | ⟨⟨ht, rfl⟩, hrest⟩ := hpending
    rename_i x' rest'
    rw [search, if_neg hnear, ← h.qualifiedName_eq ht, if_neg hnew, ← h.verdict_eq ht, hverdict]
    have hrun := Inquiry.run_bind find t.supertypes fun ts =>
      search name arguments (t.qualifiedName :: examined) (ts.map (·, x'.2 + 1) ++ rest)
    have hrun' := Inquiry.run_bind find' x'.1.supertypes fun ts =>
      search name arguments (t.qualifiedName :: examined) (ts.map (·, x'.2 + 1) ++ rest')
    rw [run_supertypes] at hrun hrun'
    refine hrun.trans (Eq.trans (ih _ ?_) hrun'.symm)
    refine List.rel_append ?_ hrest
    exact List.rel_map (fun t t' h => ⟨h, rfl⟩) (h.parents ht)
  | case5 examined t distance rest hnear hnew hverdict =>
    obtain _ | ⟨⟨ht, rfl⟩, hrest⟩ := hpending
    rw [search, if_neg hnear, ← h.qualifiedName_eq ht, if_neg hnew, ← h.verdict_eq ht]
    split
    · contradiction
    · rfl

theorem run_lookup (h : Corresponds find find' name arguments R) (ht : R t t') :
    (lookup t name arguments).run find = (lookup t' name arguments).run find' :=
  h.run_search (.cons ⟨ht, rfl⟩ .nil)

end Corresponds

end StructureGraph.Resolution
