import Mathlib.Data.List.Forall2
import Mathlib.Data.List.Lex
import StructureGraph.Java.Syntax.Tree

namespace StructureGraph.Java.Syntax

namespace Tree

/-- The node at a place. -/
def at? : Tree → List Nat → Option Tree
  | t, [] => some t
  | t, i :: p => (t.children[i]?).bind fun x => x.2.at? p

variable {t s : Tree} {p q : List Nat}

@[simp] theorem at?_nil (t : Tree) : t.at? [] = some t := rfl

theorem at?_cons (t : Tree) (i : Nat) (p : List Nat) :
    t.at? (i :: p) = (t.children[i]?).bind fun x => x.2.at? p := rfl

theorem at?_append (t : Tree) (p q : List Nat) : t.at? (p ++ q) = (t.at? p).bind fun s => s.at? q := by
  induction p generalizing t with
  | nil => rfl
  | cons i p ih =>
    rw [List.cons_append, at?_cons, at?_cons]
    cases t.children[i]? with
    | none => rfl
    | some x => exact ih x.2

theorem at?_of_child {i : Nat} {r : Option Role} (h : t.children[i]? = some (r, s)) : t.at? [i] = some s := by
  rw [at?_cons, h]
  rfl

end Tree

/-- The one place lies to the left of the other, and neither below the other. -/
inductive LeftOf : List Nat → List Nat → Prop
  | here {i j : Nat} {p q : List Nat} : i < j → LeftOf (i :: p) (j :: q)
  | within {i : Nat} {p q : List Nat} : LeftOf p q → LeftOf (i :: p) (i :: q)

namespace LeftOf

variable {p q : List Nat}

theorem lt (h : LeftOf p q) : p < q := by
  induction h with
  | here hlt => exact List.Lex.rel hlt
  | within _ ih => exact List.Lex.cons ih

/-- What lies below the one place is to the left of what lies below the other. -/
theorem append (h : LeftOf p q) (p' q' : List Nat) : LeftOf (p ++ p') (q ++ q') := by
  induction h with
  | here hlt => exact .here hlt
  | within _ ih => exact .within ih

private theorem append_left (h : LeftOf p q) (r : List Nat) : LeftOf (r ++ p) (r ++ q) := by
  induction r with
  | nil => exact h
  | cons i r ih => exact .within ih

end LeftOf

abbrev PlacedTree := List Nat × Tree

namespace PlacedTree

variable {xs : List PlacedTree} {f : Tree → List PlacedTree} {x : PlacedTree} {p : List Nat} {s t : Tree}

/-- What is gathered below some nodes. -/
def below (xs : List PlacedTree) (f : Tree → List PlacedTree) : List PlacedTree :=
  xs.flatMap fun x => (f x.2).map fun y => (x.1 ++ y.1, y.2)

/-- The nodes come in pre-order. -/
def InPreorder (xs : List PlacedTree) : Prop := xs.Pairwise fun x y => x.1 < y.1

/-- The nodes lie side by side, from left to right. -/
def SideBySide (xs : List PlacedTree) : Prop := xs.Pairwise fun x y => LeftOf x.1 y.1

theorem mem_below : x ∈ below xs f ↔ ∃ y ∈ xs, ∃ z ∈ f y.2, x = (y.1 ++ z.1, z.2) := by
  simp only [below, List.mem_flatMap, List.mem_map, eq_comm]

theorem map_snd_below (xs : List PlacedTree) (f : Tree → List PlacedTree) :
    (below xs f).map Prod.snd = (xs.map Prod.snd).flatMap fun t => (f t).map Prod.snd := by
  simp only [below, List.map_flatMap, List.map_map, List.flatMap_map]
  rfl

/-- What is found at its place from a node is found at the whole place from the root. -/
theorem at?_of_mem_below (hxs : ∀ y ∈ xs, t.at? y.1 = some y.2)
    (hf : ∀ y ∈ xs, ∀ z ∈ f y.2, y.2.at? z.1 = some z.2) : ∀ x ∈ below xs f, t.at? x.1 = some x.2 := by
  intro x hx
  obtain ⟨y, hy, z, hz, rfl⟩ := mem_below.mp hx
  rw [Tree.at?_append, hxs y hy, Option.bind_some, hf y hy z hz]

private theorem pairwise_below {r : List Nat → List Nat → Prop} (hxs : SideBySide xs)
    (hleft : ∀ {p q : List Nat}, LeftOf p q → r p q)
    (hbelow : ∀ {p q q' : List Nat}, r q q' → r (p ++ q) (p ++ q'))
    (hf : ∀ x ∈ xs, (f x.2).Pairwise fun y z => r y.1 z.1) : (below xs f).Pairwise fun x y => r x.1 y.1 := by
  refine List.pairwise_flatMap.mpr ⟨fun x hx => ?_, hxs.imp fun {x y} hxy => ?_⟩
  · exact List.pairwise_map.mpr ((hf x hx).imp hbelow)
  · intro z hz z' hz'
    obtain ⟨w, -, rfl⟩ := List.mem_map.mp hz
    obtain ⟨w', -, rfl⟩ := List.mem_map.mp hz'
    exact hleft (hxy.append w.1 w'.1)

theorem SideBySide.inPreorder_below (hxs : SideBySide xs) (hf : ∀ x ∈ xs, InPreorder (f x.2)) :
    InPreorder (below xs f) :=
  pairwise_below hxs LeftOf.lt List.append_left_lt hf

theorem SideBySide.below (hxs : SideBySide xs) (hf : ∀ x ∈ xs, SideBySide (f x.2)) :
    SideBySide (below xs f) :=
  pairwise_below hxs id (fun h => h.append_left _) hf

theorem InPreorder.nodup (h : InPreorder xs) : (xs.map Prod.fst).Nodup :=
  List.pairwise_map.mpr (h.imp fun hlt => ne_of_lt hlt)

theorem SideBySide.filter (h : SideBySide xs) (q : PlacedTree → Bool) : SideBySide (xs.filter q) :=
  h.sublist List.filter_sublist

end PlacedTree

namespace Tree

open PlacedTree (below SideBySide InPreorder)

variable {t s : Tree} {p : List Nat} {i : Nat} {r : Role}

/-- What holds of a tree whenever it holds of its children holds of all trees. -/
theorem forall_of_children {motive : Tree → Prop} (step : ∀ t, (∀ x ∈ t.children, motive x.2) → motive t) :
    ∀ t, motive t
  | .leaf .. => step _ nofun
  | .branch _ cs => step _ (all cs)
where
  all : ∀ cs : List (Option Role × Tree), ∀ x ∈ cs, motive x.2
    | [] => nofun
    | (_, t) :: ts => List.forall_mem_cons.mpr ⟨forall_of_children step t, all ts⟩

/-- What holds of a tree whenever it holds of all below it holds of all trees. -/
theorem forall_of_below {motive : Tree → Prop}
    (step : ∀ t, (∀ p s, p ≠ [] → t.at? p = some s → motive s) → motive t) (t : Tree) : motive t := by
  have hall : ∀ p s, t.at? p = some s → motive s := by
    induction t using forall_of_children with
    | step t ih =>
      have hbelow : ∀ p s, p ≠ [] → t.at? p = some s → motive s := by
        intro p s hp hs
        cases p with
        | nil => exact (hp rfl).elim
        | cons i p =>
          obtain ⟨x, hx, hs⟩ := Option.bind_eq_some_iff.mp hs
          exact ih x (List.mem_of_getElem? hx) p s hs
      intro p s hs
      cases p with
      | nil => exact Option.some.inj hs ▸ step t hbelow
      | cons i p => exact hbelow (i :: p) s (List.cons_ne_nil i p) hs
  exact hall [] t rfl

/-- The children with their places. -/
def placedChildren (t : Tree) : List PlacedTree := t.children.zipIdx.map fun x => ([x.2], x.1.2)

/-- The children in a role with their numbers. -/
def numberedAs (r : Role) (t : Tree) : List (Nat × Tree) :=
  (t.children.zipIdx.filter fun x => x.1.1 == some r).map fun x => (x.2, x.1.2)

/-- The children in a role with their places. -/
def placedAs (r : Role) (t : Tree) : List PlacedTree := (t.numberedAs r).map fun x => ([x.1], x.2)

theorem pairwise_zipIdx (cs : List (Option Role × Tree)) : cs.zipIdx.Pairwise fun x y => x.2 < y.2 := by
  have hrange : (cs.zipIdx.map Prod.snd).Pairwise (· < ·) := by
    rw [List.zipIdx_map_snd]
    exact List.pairwise_lt_range'
  exact List.pairwise_map.mp hrange

theorem mem_placedChildren : (p, s) ∈ t.placedChildren ↔ ∃ i r, p = [i] ∧ t.children[i]? = some (r, s) := by
  simp only [placedChildren, List.mem_map, Prod.mk.injEq]
  constructor
  · rintro ⟨⟨⟨r, s'⟩, i⟩, hmem, rfl, rfl⟩
    exact ⟨i, r, rfl, List.mem_zipIdx_iff_getElem?.mp hmem⟩
  · rintro ⟨i, r, rfl, hchild⟩
    exact ⟨((r, s), i), List.mem_zipIdx_iff_getElem?.mpr hchild, rfl, rfl⟩

theorem at?_of_mem_placedChildren : ∀ x ∈ t.placedChildren, t.at? x.1 = some x.2 := by
  rintro ⟨p, s⟩ hx
  obtain ⟨i, r, rfl, hchild⟩ := mem_placedChildren.mp hx
  exact at?_of_child hchild

theorem sideBySide_placedChildren (t : Tree) : SideBySide t.placedChildren :=
  List.pairwise_map.mpr ((pairwise_zipIdx t.children).imp LeftOf.here)

theorem map_snd_placedChildren (t : Tree) : t.placedChildren.map Prod.snd = t.children.map Prod.snd := by
  rw [placedChildren, List.map_map, ← List.zipIdx_map_fst 0 t.children, List.map_map]
  simp only [List.zipIdx_map_fst]
  rfl

theorem mem_numberedAs : (i, s) ∈ t.numberedAs r ↔ t.children[i]? = some (some r, s) := by
  simp only [numberedAs, List.mem_map, List.mem_filter, Prod.mk.injEq, beq_iff_eq]
  constructor
  · rintro ⟨⟨⟨r', s'⟩, i'⟩, ⟨hmem, rfl⟩, rfl, rfl⟩
    exact List.mem_zipIdx_iff_getElem?.mp hmem
  · intro hchild
    exact ⟨((some r, s), i), ⟨List.mem_zipIdx_iff_getElem?.mpr hchild, rfl⟩, rfl, rfl⟩

theorem pairwise_numberedAs (r : Role) (t : Tree) : (t.numberedAs r).Pairwise fun x y => x.1 < y.1 :=
  List.pairwise_map.mpr ((pairwise_zipIdx t.children).sublist List.filter_sublist)

theorem map_snd_numberedAs (r : Role) (t : Tree) : (t.numberedAs r).map Prod.snd = t.allAs r := by
  have hfilter : (t.children.zipIdx.filter fun x => x.1.1 == some r).map Prod.fst =
      t.children.filter (·.1 == some r) := by
    have hmap := (List.filter_map (p := fun x : Option Role × Tree => x.1 == some r) (f := Prod.fst)
      (l := t.children.zipIdx)).symm
    rwa [List.zipIdx_map_fst] at hmap
  rw [numberedAs, List.map_map, allAs, ← hfilter, List.map_map]
  rfl

theorem mem_placedAs : (p, s) ∈ t.placedAs r ↔ ∃ i, p = [i] ∧ t.children[i]? = some (some r, s) := by
  simp only [placedAs, List.mem_map, Prod.mk.injEq]
  constructor
  · rintro ⟨⟨i, s'⟩, hmem, rfl, rfl⟩
    exact ⟨i, rfl, mem_numberedAs.mp hmem⟩
  · rintro ⟨i, rfl, hchild⟩
    exact ⟨(i, s), mem_numberedAs.mpr hchild, rfl, rfl⟩

theorem at?_of_mem_placedAs : ∀ x ∈ t.placedAs r, t.at? x.1 = some x.2 := by
  rintro ⟨p, s⟩ hx
  obtain ⟨i, rfl, hchild⟩ := mem_placedAs.mp hx
  exact at?_of_child hchild

theorem sideBySide_placedAs (r : Role) (t : Tree) : SideBySide (t.placedAs r) :=
  List.pairwise_map.mpr ((pairwise_numberedAs r t).imp LeftOf.here)

theorem map_snd_placedAs (r : Role) (t : Tree) : (t.placedAs r).map Prod.snd = t.allAs r := by
  rw [placedAs, List.map_map, ← map_snd_numberedAs]
  rfl

end Tree

theorem forall₂_flatMap {ι α β : Type} {entry : ι → α → Prop} {f : β → List ι} {g : β → List α} {xs : List β}
    (h : ∀ x ∈ xs, List.Forall₂ entry (f x) (g x)) : List.Forall₂ entry (xs.flatMap f) (xs.flatMap g) := by
  induction xs with
  | nil => exact .nil
  | cons x xs ih =>
    obtain ⟨hx, hxs⟩ := List.forall_mem_cons.mp h
    rw [List.flatMap_cons, List.flatMap_cons]
    exact List.rel_append hx (ih hxs)

theorem forall₂_filterMap {α β : Type} {f : α → Option β} {rel : α → β → Prop} {xs : List α}
    (h : ∀ x ∈ xs, ∃ y, f x = some y ∧ rel x y) : List.Forall₂ rel xs (xs.filterMap f) := by
  induction xs with
  | nil => exact .nil
  | cons x xs ih =>
    obtain ⟨⟨y, hy, hrel⟩, hxs⟩ := List.forall_mem_cons.mp h
    rw [List.filterMap_cons_some hy]
    exact .cons hrel (ih hxs)

/-- There is one entry for each place that is told, in the order of the places. -/
def IsListing {ι α : Type} [LT ι] (told : ι → Prop) (entry : ι → α → Prop) (xs : List α) : Prop :=
  ∃ places : List ι, places.Pairwise (· < ·) ∧ (∀ p, p ∈ places ↔ told p) ∧ List.Forall₂ entry places xs

namespace IsListing

variable {α : Type} {told told' : List Nat → Prop} {entry entry' : List Nat → α → Prop} {xs : List α} {a : α}

theorem imp (h : IsListing told entry xs) (htold : ∀ p, told p ↔ told' p)
    (hentry : ∀ p a, entry p a → entry' p a) : IsListing told' entry' xs := by
  obtain ⟨places, hplaces, hmem, hentries⟩ := h
  exact ⟨places, hplaces, fun p => (hmem p).trans (htold p), hentries.imp hentry⟩

/-- An entry for the root before those of places below it. -/
theorem root (h : IsListing told entry xs) (hbelow : ¬told []) (ha : entry [] a) :
    IsListing (fun p => p = [] ∨ told p) entry (a :: xs) := by
  obtain ⟨places, hplaces, hmem, hentries⟩ := h
  refine ⟨[] :: places, List.pairwise_cons.mpr ⟨fun p hp => ?_, hplaces⟩, fun p => ?_, .cons ha hentries⟩
  · cases p with
    | nil => exact absurd ((hmem []).mp hp) hbelow
    | cons i p => exact List.Lex.nil
  · rw [List.mem_cons, hmem]

/-- The entries of trees that lie side by side. -/
theorem below {ts : List PlacedTree} {told : Tree → List Nat → Prop} {entry : Tree → List Nat → α → Prop}
    {xs : Tree → List α} (hts : PlacedTree.SideBySide ts)
    (h : ∀ x ∈ ts, IsListing (told x.2) (entry x.2) (xs x.2)) :
    IsListing (fun p => ∃ x ∈ ts, ∃ q, p = x.1 ++ q ∧ told x.2 q)
      (fun p a => ∃ x ∈ ts, ∃ q, p = x.1 ++ q ∧ entry x.2 q a) (ts.flatMap fun x => xs x.2) := by
  induction ts with
  | nil => exact ⟨[], List.Pairwise.nil, by simp, .nil⟩
  | cons x ts ih =>
    obtain ⟨hleft, hts⟩ := List.pairwise_cons.mp hts
    obtain ⟨hx, h⟩ := List.forall_mem_cons.mp h
    obtain ⟨places, hplaces, hmem, hentries⟩ := hx
    obtain ⟨places', hplaces', hmem', hentries'⟩ := ih hts h
    refine ⟨places.map (x.1 ++ ·) ++ places', ?_, fun p => ?_, List.rel_append ?_ ?_⟩
    · refine List.pairwise_append.mpr ⟨List.pairwise_map.mpr (hplaces.imp List.append_left_lt), hplaces', ?_⟩
      intro p hp p' hp'
      obtain ⟨q, -, rfl⟩ := List.mem_map.mp hp
      obtain ⟨y, hy, q', rfl, -⟩ := (hmem' p').mp hp'
      exact ((hleft y hy).append q q').lt
    · have hfirst : p ∈ places.map (x.1 ++ ·) ↔ ∃ q, p = x.1 ++ q ∧ told x.2 q := by
        simp only [List.mem_map, hmem, eq_comm, and_comm]
      rw [List.mem_append, hfirst, hmem']
      exact (List.exists_mem_cons_iff (fun y => ∃ q, p = y.1 ++ q ∧ told y.2 q) x ts).symm
    · exact List.forall₂_map_left_iff.mpr (hentries.imp fun q a hqa => ⟨x, List.mem_cons_self, q, rfl, hqa⟩)
    · exact hentries'.imp fun p a ⟨y, hy, hya⟩ => ⟨y, List.mem_cons_of_mem x hy, hya⟩

end IsListing

end StructureGraph.Java.Syntax
