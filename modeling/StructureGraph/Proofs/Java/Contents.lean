import Mathlib.Data.Prod.Lex
import StructureGraph.Java.Extraction
import StructureGraph.Proofs.Java.Form

namespace StructureGraph.Java.Extraction

open Syntax

/-- Neither the node at the place nor one above it declares a type. -/
def IsOuter (t : Tree) (p : List Nat) : Prop :=
  ∀ q s, q <+: p → t.at? q = some s → s.kind.isTypeDeclaration = false

mutual

/-- The nodes that lie in no type declaration, in pre-order. -/
def outerNodes : Tree → List PlacedTree
  | .leaf k gap text line => if k.isTypeDeclaration then [] else [([], .leaf k gap text line)]
  | .branch k cs => if k.isTypeDeclaration then [] else ([], .branch k cs) :: outerNodesFrom 0 cs

/-- The same for children that are numbered from the given number. -/
def outerNodesFrom (i : Nat) : List (Option Role × Tree) → List PlacedTree
  | [] => []
  | (_, t) :: ts => (outerNodes t).map (fun x => (i :: x.1, x.2)) ++ outerNodesFrom (i + 1) ts

end

variable {t s : Tree} {p : List Nat} {i : Nat} {r : Option Role}

theorem isOuter_nil : IsOuter t [] ↔ t.kind.isTypeDeclaration = false := by
  constructor
  · intro h
    exact h [] t (List.prefix_refl []) rfl
  · intro h q s hq hs
    obtain rfl := List.prefix_nil.mp hq
    rwa [← Option.some.inj hs]

theorem isOuter_cons (h : t.children[i]? = some (r, s)) :
    IsOuter t (i :: p) ↔ t.kind.isTypeDeclaration = false ∧ IsOuter s p := by
  constructor
  · intro houter
    refine ⟨houter [] t List.nil_prefix rfl, fun q s' hq hs' => houter (i :: q) s' ?_ ?_⟩
    · exact List.cons_prefix_cons.mpr ⟨rfl, hq⟩
    · rw [Tree.at?_cons, h]
      exact hs'
  · rintro ⟨ht, hs⟩ q s' hq hs'
    cases q with
    | nil => rwa [← Option.some.inj hs']
    | cons j q =>
      obtain ⟨rfl, hbelow⟩ := List.cons_prefix_cons.mp hq
      rw [Tree.at?_cons, h] at hs'
      exact hs q s' hbelow hs'

private theorem outerNodesFrom_eq (i : Nat) (cs : List (Option Role × Tree)) : outerNodesFrom i cs =
    PlacedTree.below ((cs.zipIdx i).map fun x => ([x.2], x.1.2)) outerNodes := by
  induction cs generalizing i with
  | nil => rfl
  | cons x cs ih =>
    rw [outerNodesFrom, ih]
    rfl

private theorem outerNodes_eq (t : Tree) : outerNodes t =
    if t.kind.isTypeDeclaration then [] else ([], t) :: PlacedTree.below t.placedChildren outerNodes := by
  cases t with
  | leaf k gap text line => rfl
  | branch k cs =>
    rw [outerNodes, outerNodesFrom_eq]
    rfl

theorem inPreorder_outerNodes (t : Tree) : PlacedTree.InPreorder (outerNodes t) := by
  induction t using Tree.forall_of_children with
  | step t ih =>
    rw [outerNodes_eq]
    split
    · exact List.Pairwise.nil
    · have hchildren : PlacedTree.InPreorder (PlacedTree.below t.placedChildren outerNodes) := by
        refine (Tree.sideBySide_placedChildren t).inPreorder_below fun x hx => ?_
        obtain ⟨i, r, -, hchild⟩ := Tree.mem_placedChildren.mp hx
        exact ih (r, x.2) (List.mem_of_getElem? hchild)
      refine List.pairwise_cons.mpr ⟨fun x hx => ?_, hchildren⟩
      obtain ⟨y, hy, z, -, rfl⟩ := PlacedTree.mem_below.mp hx
      obtain ⟨i, r, hplace, -⟩ := Tree.mem_placedChildren.mp hy
      rw [hplace]
      exact List.Lex.nil

theorem mem_outerNodes : (p, s) ∈ outerNodes t ↔ t.at? p = some s ∧ IsOuter t p := by
  induction t using Tree.forall_of_children generalizing p with
  | step t ih =>
    rw [outerNodes_eq]
    split
    · rename_i hdeclares
      refine ⟨nofun, fun ⟨_, houter⟩ => ?_⟩
      exact absurd (houter [] t List.nil_prefix rfl) (by simp [hdeclares])
    · rename_i hother
      rw [Bool.not_eq_true] at hother
      rw [List.mem_cons, PlacedTree.mem_below]
      constructor
      · rintro (heq | ⟨⟨q, s'⟩, hy, ⟨q', s''⟩, hz, heq⟩)
        · obtain ⟨rfl, rfl⟩ := Prod.mk.inj heq
          exact ⟨rfl, isOuter_nil.mpr hother⟩
        · obtain ⟨rfl, rfl⟩ := Prod.mk.inj heq
          obtain ⟨i, r, rfl, hchild⟩ := Tree.mem_placedChildren.mp hy
          obtain ⟨hat, houter⟩ := (ih (r, s') (List.mem_of_getElem? hchild)).mp hz
          refine ⟨?_, (isOuter_cons hchild).mpr ⟨hother, houter⟩⟩
          rw [List.singleton_append, Tree.at?_cons, hchild]
          exact hat
      · rintro ⟨hat, houter⟩
        cases p with
        | nil => exact .inl (Prod.ext rfl (Option.some.inj hat).symm)
        | cons i p =>
          obtain ⟨⟨r, s'⟩, hchild, hat⟩ := Option.bind_eq_some_iff.mp hat
          refine .inr ⟨([i], s'), Tree.mem_placedChildren.mpr ⟨i, r, rfl, hchild⟩, (p, s), ?_, rfl⟩
          exact (ih (r, s') (List.mem_of_getElem? hchild)).mpr ⟨hat, ((isOuter_cons hchild).mp houter).2⟩

private theorem ownContents_leaf {k : Kind} {gap text : String} {line : Nat}
    (h : (Tree.leaf k gap text line).IsFormed) : ownContents (.leaf k gap text line) = .empty := by
  cases k
  case forStatement =>
    have hleast := (h.meetsDemands (.has .token) (List.mem_singleton_self _)).1
    exact absurd hleast (Nat.not_succ_le_zero 0)
  all_goals rfl

section

variable {α : Type} (part : Contents → List α) (hempty : part .empty = [])
  (happend : ∀ a b : Contents, part (a ++ b) = part a ++ part b)

include hempty happend

mutual

/-- What is gathered from a tree is what its outer nodes put down. -/
theorem contents_eq : ∀ {t : Tree}, t.IsFormed → part (contents t) =
    (outerNodes t).flatMap fun x => part (ownContents x.2)
  | .leaf k gap text line, h => by
    rw [contents, outerNodes, hempty]
    split
    · rfl
    · rw [List.flatMap_singleton, ownContents_leaf h, hempty]
  | .branch k cs, h => by
    rw [contents, outerNodes]
    split
    · exact hempty
    · have hcs : ∀ x ∈ cs, x.2.IsFormed := h.children
      rw [happend, List.flatMap_cons, contentsOfAll_eq 0 hcs]

private theorem contentsOfAll_eq (i : Nat) : ∀ {cs : List (Option Role × Tree)}, (∀ x ∈ cs, x.2.IsFormed) →
    part (contentsOfAll cs) = (outerNodesFrom i cs).flatMap fun x => part (ownContents x.2)
  | [], _ => hempty
  | (_, t) :: ts, h => by
    obtain ⟨ht, hts⟩ := List.forall_mem_cons.mp h
    rw [contentsOfAll, outerNodesFrom, happend, List.flatMap_append, List.flatMap_map, contents_eq ht,
      contentsOfAll_eq (i + 1) hts]

end

end

/-- The places of the nodes of some kinds. -/
def placesOf (kinds : Kind → Bool) (nodes : List PlacedTree) : List (List Nat) :=
  (nodes.filter fun x => kinds x.2.kind).map Prod.fst

theorem mem_placesOf {kinds : Kind → Bool} {nodes : List PlacedTree} :
    p ∈ placesOf kinds nodes ↔ ∃ s, (p, s) ∈ nodes ∧ kinds s.kind := by
  simp only [placesOf, List.mem_map, List.mem_filter, Prod.exists, exists_and_right, exists_eq_right]

theorem placesOf_cons (kinds : Kind → Bool) (x : PlacedTree) (nodes : List PlacedTree) :
    placesOf kinds (x :: nodes) =
      if kinds x.2.kind then x.1 :: placesOf kinds nodes else placesOf kinds nodes := by
  rw [placesOf, List.filter_cons]
  split <;> rfl

theorem pairwise_placesOf {nodes : List PlacedTree} (h : PlacedTree.InPreorder nodes) (kinds : Kind → Bool) :
    (placesOf kinds nodes).Pairwise (· < ·) :=
  List.pairwise_map.mpr (h.sublist List.filter_sublist)

/-- Of the nodes those of some kinds put down a single entry each. -/
theorem forall₂_placesOf {α : Type} {nodes : List PlacedTree} {f : Tree → List α} {kinds : Kind → Bool}
    {entry : List Nat → α → Prop} (hother : ∀ s : Tree, kinds s.kind = false → f s = [])
    (hentry : ∀ p s, (p, s) ∈ nodes → kinds s.kind → ∃ e, f s = [e] ∧ entry p e) :
    List.Forall₂ entry (placesOf kinds nodes) (nodes.flatMap fun x => f x.2) := by
  induction nodes with
  | nil => exact .nil
  | cons x nodes ih =>
    have ih := ih fun p s hs => hentry p s (.tail _ hs)
    rw [placesOf_cons, List.flatMap_cons]
    split
    · rename_i hkind
      obtain ⟨e, he, hx⟩ := hentry x.1 x.2 (.head _) hkind
      rw [he]
      exact .cons hx ih
    · rename_i hkind
      rw [hother x.2 (Bool.eq_false_iff.mpr hkind)]
      exact ih

def isBranch : Kind → Bool
  | .ifStatement | .forStatement | .enhancedForStatement => true
  | _ => false

/-- The role of the children that stand for a local each. -/
def localRole? : Kind → Option Role
  | .localVariableDeclaration => some .declarator
  | .enhancedForStatement => some .name
  | _ => none

/-- The local that a child stands for: a declarator has a name, and that of a loop is one. -/
def localOf? (t : Tree) (c : Tree) : Option Local :=
  match t.kind with
  | .localVariableDeclaration => (c.childAs .name).bind fun name => (writtenType? t).map (⟨name.text, ·⟩)
  | .enhancedForStatement => (writtenType? t).map (⟨c.text, ·⟩)
  | _ => none

private theorem exists_call {s : Tree} (h : s.IsFormed) (hkind : s.kind = .methodInvocation) :
    ∃ c, (ownContents s).calls = [c] ∧ call? s = some c := by
  obtain ⟨name, hname⟩ := h.meetsDemands.exists_childAs (r := .name) (by rw [hkind]; exact .head _)
  have hcall : ∃ c, call? s = some c := by
    rw [call?, hname]
    exact ⟨_, rfl⟩
  obtain ⟨c, hc⟩ := hcall
  refine ⟨c, ?_, hc⟩
  rw [ownContents, hkind]
  simp only [hc, Option.toList_some]

private theorem exists_loop {s : Tree} (h : s.IsFormed) (hkind : s.kind = .enhancedForStatement) :
    ∃ b type name, loop? s = some (b, ⟨name.text, type⟩) ∧ s.allAs .name = [name] ∧
      writtenType? s = some type := by
  obtain ⟨type, htype⟩ := h.meetsDemands.exists_childAs (r := .type) (by rw [hkind]; exact .head _)
  obtain ⟨name, hname⟩ := h.meetsDemands.exists_childAs (r := .name) (by rw [hkind]; exact .tail _ (.head _))
  obtain ⟨value, hvalue⟩ := h.meetsDemands.exists_childAs (r := .value)
    (by rw [hkind]; exact .tail _ (.tail _ (.tail _ (.head _))))
  have hone := h.meetsDemands.allAs_eq (r := .name) (by rw [hkind]; exact .tail _ (.tail _ (.head _)))
  refine ⟨_, TypeText.erase type.text, name, by rw [loop?, htype, hname, hvalue], ?_, ?_⟩
  · rw [hone, hname, Option.toList_some]
  · rw [writtenType?, htype, Option.map_some]

private theorem exists_branch {s : Tree} (h : s.IsFormed) (hkind : isBranch s.kind) :
    ∃ b, (ownContents s).branches = [b] := by
  unfold isBranch at hkind
  split at hkind
  · rename_i hif
    obtain ⟨condition, hcondition⟩ := h.meetsDemands.exists_childAs (r := .condition)
      (by rw [hif]; exact .head _)
    exact ⟨_, by rw [ownContents, hif]; simp only [hcondition, Option.map_some, Option.toList_some]; rfl⟩
  · rename_i hfor
    exact ⟨_, by rw [ownContents, hfor]⟩
  · rename_i hfor
    obtain ⟨b, type, name, hloop, -, -⟩ := exists_loop h hfor
    exact ⟨b, by rw [ownContents, hfor]; simp only [hloop, Option.map_some, Option.toList_some]⟩
  · cases hkind

/-- The children that stand for locals, with their numbers. -/
def numberedLocals (s : Tree) : List (Nat × Tree) := ((localRole? s.kind).map s.numberedAs).getD []

private theorem mem_numberedLocals {i : Nat} {c : Tree} : (i, c) ∈ numberedLocals s ↔
    ∃ r, localRole? s.kind = some r ∧ s.children[i]? = some (some r, c) := by
  rw [numberedLocals]
  cases localRole? s.kind with
  | none => simp
  | some r => simp [Tree.mem_numberedAs]

private theorem pairwise_numberedLocals (s : Tree) : (numberedLocals s).Pairwise fun x y => x.1 < y.1 := by
  rw [numberedLocals]
  cases localRole? s.kind with
  | none => exact List.Pairwise.nil
  | some r => exact Tree.pairwise_numberedAs r s

private theorem map_snd_numberedLocals {r : Role} (h : localRole? s.kind = some r) :
    (numberedLocals s).map Prod.snd = s.allAs r := by
  rw [numberedLocals, h]
  exact Tree.map_snd_numberedAs r s

private theorem forall₂_declaredLocals (h : s.IsFormed) (hkind : s.kind = .localVariableDeclaration) :
    List.Forall₂ (fun c l => localOf? s c = some l) (s.allAs .declarator) (declaredLocals s) := by
  obtain ⟨type, htype⟩ := h.meetsDemands.exists_childAs (r := .type) (by rw [hkind]; exact .head _)
  have hwritten : writtenType? s = some (TypeText.erase type.text) := by
    rw [writtenType?, htype]
    rfl
  rw [declaredLocals, hwritten]
  refine forall₂_filterMap fun d hd => ?_
  have hdeclarator := h.meetsDemands.kind_eq (r := .declarator) (k := .variableDeclarator)
    (by rw [hkind]; exact .tail _ (.head _)) hd
  obtain ⟨name, hname⟩ := (h.of_mem_allAs hd).meetsDemands.exists_childAs (r := .name)
    (by rw [hdeclarator]; exact .head _)
  refine ⟨⟨name.text, TypeText.erase type.text⟩, by rw [hname]; rfl, ?_⟩
  rw [localOf?, hkind]
  simp only [hname, hwritten, Option.bind_some, Option.map_some]

private theorem forall₂_locals (h : s.IsFormed) :
    List.Forall₂ (fun x l => localOf? s x.2 = some l) (numberedLocals s) (ownContents s).locals := by
  have hchildren : List.Forall₂ (fun c l => localOf? s c = some l) ((numberedLocals s).map Prod.snd)
      (ownContents s).locals := by
    cases hkind : s.kind
    case localVariableDeclaration =>
      rw [map_snd_numberedLocals (r := .declarator) (by rw [hkind]; rfl), ownContents, hkind]
      exact forall₂_declaredLocals h hkind
    case enhancedForStatement =>
      obtain ⟨b, type, name, hloop, hname, htype⟩ := exists_loop h hkind
      rw [map_snd_numberedLocals (r := .name) (by rw [hkind]; rfl), hname, ownContents, hkind]
      simp only [hloop, Option.map_some, Option.toList_some]
      refine .cons ?_ .nil
      rw [localOf?, hkind]
      simp only [htype, Option.map_some]
    all_goals
      rw [numberedLocals, ownContents, hkind]
      exact .nil
  exact List.forall₂_map_left_iff.mp hchildren

def isCall (k : Kind) : Bool := k == .methodInvocation

theorem forall₂_calls {nodes : List PlacedTree} (ht : t.IsFormed) (hat : ∀ x ∈ nodes, t.at? x.1 = some x.2) :
    List.Forall₂ (fun p c => (t.at? p).bind call? = some c) (placesOf isCall nodes)
      (nodes.flatMap fun x => (ownContents x.2).calls) := by
  refine forall₂_placesOf (f := fun s => (ownContents s).calls) (fun s hkind => ?_) fun p s hs hkind => ?_
  · unfold ownContents
    split
    case h_1 hcall =>
      rw [hcall] at hkind
      cases hkind
    all_goals rfl
  · obtain ⟨c, hown, hc⟩ := exists_call (ht.at? (hat _ hs)) (beq_iff_eq.mp hkind)
    exact ⟨c, hown, by rw [hat _ hs, Option.bind_some, hc]⟩

private theorem forall₂_branches {nodes : List PlacedTree} (ht : t.IsFormed)
    (hat : ∀ x ∈ nodes, t.at? x.1 = some x.2) :
    List.Forall₂ (fun p b => ∃ s, t.at? p = some s ∧ (ownContents s).branches = [b]) (placesOf isBranch nodes)
      (nodes.flatMap fun x => (ownContents x.2).branches) := by
  refine forall₂_placesOf (f := fun s => (ownContents s).branches) (fun s hkind => ?_)
    fun p s hs hkind => ?_
  · unfold ownContents
    split
    case h_3 hif | h_4 hif | h_5 hif =>
      rw [hif] at hkind
      cases hkind
    all_goals rfl
  · obtain ⟨b, hown⟩ := exists_branch (ht.at? (hat _ hs)) hkind
    exact ⟨b, hown, s, hat _ hs, hown⟩

/-- The places of the locals that stand in a node: its own and the number of the child. -/
def localPlaces (x : PlacedTree) : List (List Nat ×ₗ Nat) :=
  (numberedLocals x.2).map fun y => toLex (x.1, y.1)

private theorem pairwise_localPlaces {nodes : List PlacedTree} (h : PlacedTree.InPreorder nodes) :
    (nodes.flatMap localPlaces).Pairwise (· < ·) := by
  refine List.pairwise_flatMap.mpr ⟨fun x _ => ?_, h.imp fun {x y} hlt a ha b hb => ?_⟩
  · refine List.pairwise_map.mpr ((pairwise_numberedLocals x.2).imp fun hlt => ?_)
    exact Prod.Lex.toLex_lt_toLex.mpr (.inr ⟨rfl, hlt⟩)
  · obtain ⟨-, -, rfl⟩ := List.mem_map.mp ha
    obtain ⟨-, -, rfl⟩ := List.mem_map.mp hb
    exact Prod.Lex.toLex_lt_toLex.mpr (.inl hlt)

private theorem mem_localPlaces {nodes : List PlacedTree} {a : List Nat ×ₗ Nat} :
    a ∈ nodes.flatMap localPlaces ↔
    ∃ s r c, ((ofLex a).1, s) ∈ nodes ∧ localRole? s.kind = some r ∧
      s.children[(ofLex a).2]? = some (some r, c) := by
  simp only [List.mem_flatMap, localPlaces, List.mem_map]
  constructor
  · rintro ⟨⟨p, s⟩, hs, ⟨i, c⟩, hc, rfl⟩
    obtain ⟨r, hr, hchild⟩ := mem_numberedLocals.mp hc
    exact ⟨s, r, c, hs, hr, hchild⟩
  · rintro ⟨s, r, c, hs, hr, hchild⟩
    exact ⟨_, hs, (_, c), mem_numberedLocals.mpr ⟨r, hr, hchild⟩, rfl⟩

/-- The local is that of the child with this number of the node at the place. -/
def IsLocalAt (t : Tree) (a : List Nat ×ₗ Nat) (l : Local) : Prop :=
  ∃ s r c, t.at? (ofLex a).1 = some s ∧ s.children[(ofLex a).2]? = some (r, c) ∧ localOf? s c = some l

private theorem forall₂_localPlaces {nodes : List PlacedTree} (ht : t.IsFormed)
    (hat : ∀ x ∈ nodes, t.at? x.1 = some x.2) : List.Forall₂ (IsLocalAt t) (nodes.flatMap localPlaces)
      (nodes.flatMap fun x => (ownContents x.2).locals) := by
  refine forall₂_flatMap fun x hx => ?_
  have hchildren : ∀ y ∈ numberedLocals x.2, ∃ r, x.2.children[y.1]? = some (r, y.2) := fun y hy =>
    let ⟨r, _, hchild⟩ := mem_numberedLocals.mp hy
    ⟨some r, hchild⟩
  have hlocals := (List.forall₂_and_left _ _).mpr ⟨hchildren, forall₂_locals (ht.at? (hat x hx))⟩
  refine List.forall₂_map_left_iff.mpr (hlocals.imp fun y l ⟨⟨r, hchild⟩, hl⟩ => ?_)
  exact ⟨x.2, r, y.2, hat x hx, hchild, hl⟩

/-- Contents hold one entry for each node of the tree that puts some down and lies in no type declaration, in
pre-order. The locals of a statement stand together, before those declared inside it. -/
structure Covers (t : Tree) (c : Contents) : Prop where
  calls : IsListing (fun p => ∃ s, t.at? p = some s ∧ IsOuter t p ∧ isCall s.kind)
    (fun p c => (t.at? p).bind call? = some c) c.calls
  branches : IsListing (fun p => ∃ s, t.at? p = some s ∧ IsOuter t p ∧ isBranch s.kind)
    (fun p b => ∃ s, t.at? p = some s ∧ (ownContents s).branches = [b]) c.branches
  locals : IsListing (fun a : List Nat ×ₗ Nat => ∃ s r c, t.at? (ofLex a).1 = some s ∧ IsOuter t (ofLex a).1 ∧
      localRole? s.kind = some r ∧ s.children[(ofLex a).2]? = some (some r, c))
    (IsLocalAt t) c.locals

theorem at?_of_mem_outerNodes : ∀ x ∈ outerNodes t, t.at? x.1 = some x.2 :=
  fun _ hx => (mem_outerNodes.mp hx).1

private theorem isListing_placesOf {α : Type} {kinds : Kind → Bool} {entry : List Nat → α → Prop}
    {xs : List α}
    (h : List.Forall₂ entry (placesOf kinds (outerNodes t)) xs) :
    IsListing (fun p => ∃ s, t.at? p = some s ∧ IsOuter t p ∧ kinds s.kind) entry xs := by
  refine ⟨_, pairwise_placesOf (inPreorder_outerNodes t) kinds, fun p => ?_, h⟩
  simp only [mem_placesOf, mem_outerNodes, and_assoc]

theorem covers_contents (ht : t.IsFormed) : Covers t (contents t) where
  calls := by
    rw [contents_eq Contents.calls rfl (fun _ _ => rfl) ht]
    exact isListing_placesOf (forall₂_calls ht at?_of_mem_outerNodes)
  branches := by
    rw [contents_eq Contents.branches rfl (fun _ _ => rfl) ht]
    exact isListing_placesOf (forall₂_branches ht at?_of_mem_outerNodes)
  locals := by
    rw [contents_eq Contents.locals rfl (fun _ _ => rfl) ht]
    refine ⟨_, pairwise_localPlaces (inPreorder_outerNodes t), fun a => ?_,
      forall₂_localPlaces ht at?_of_mem_outerNodes⟩
    simp only [mem_localPlaces, mem_outerNodes, and_assoc]

end StructureGraph.Java.Extraction
