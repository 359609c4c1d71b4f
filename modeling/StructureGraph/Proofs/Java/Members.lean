import StructureGraph.Java.Extraction
import StructureGraph.Proofs.Java.Form

namespace StructureGraph.Java.Extraction

open Syntax
open PlacedTree (below SideBySide)

/-- The tree at the place is a member in a type body. -/
inductive IsMember : Tree → List Nat → Tree → Prop
  | here {b m : Tree} {i : Nat} {r : Option Role} : b.children[i]? = some (r, m) →
    m.kind ≠ .enumBodyDeclarations → IsMember b [i] m
  | behind {b e m : Tree} {i : Nat} {r : Option Role} {p : List Nat} : b.children[i]? = some (r, e) →
    e.kind = .enumBodyDeclarations → IsMember e p m → IsMember b (i :: p) m

/-- The tree at the place is a member of a declared type. -/
def HasMember (t : Tree) (p : List Nat) (m : Tree) : Prop :=
  ∃ i q b, p = i :: q ∧ t.children[i]? = some (some .body, b) ∧ IsMember b q m

mutual

/-- The members in a type body with their places. -/
def placedMembers : Tree → List PlacedTree
  | .leaf .. => []
  | .branch _ cs => placedMembersFrom 0 cs

/-- The same for children that are numbered from the given number. -/
def placedMembersFrom (i : Nat) : List (Option Role × Tree) → List PlacedTree
  | [] => []
  | (_, t) :: ts =>
    (if t.kind = .enumBodyDeclarations then placedMembers t else [([], t)]).map (fun x => (i :: x.1, x.2)) ++
      placedMembersFrom (i + 1) ts

end

/-- The members that a child of a type body is or holds. -/
def membersAt (t : Tree) : List PlacedTree :=
  if t.kind = .enumBodyDeclarations then placedMembers t else [([], t)]

variable {t m : Tree} {p : List Nat}

private theorem placedMembersFrom_eq (i : Nat) (cs : List (Option Role × Tree)) :
    placedMembersFrom i cs = below ((cs.zipIdx i).map fun x => ([x.2], x.1.2)) membersAt := by
  induction cs generalizing i with
  | nil => rfl
  | cons x cs ih =>
    rw [placedMembersFrom, ih]
    rfl

private theorem placedMembers_eq (t : Tree) : placedMembers t = below t.placedChildren membersAt := by
  cases t with
  | leaf k gap text line => rfl
  | branch k cs => exact placedMembersFrom_eq 0 cs

private theorem sideBySide_placedMembers (t : Tree) : SideBySide (placedMembers t) := by
  induction t using Tree.forall_of_children with
  | step t ih =>
    rw [placedMembers_eq]
    refine (Tree.sideBySide_placedChildren t).below fun x hx => ?_
    obtain ⟨i, r, -, hchild⟩ := Tree.mem_placedChildren.mp hx
    rw [membersAt]
    split
    · exact ih (r, x.2) (List.mem_of_getElem? hchild)
    · exact List.pairwise_singleton _ _

private theorem mem_placedMembers : (p, m) ∈ placedMembers t ↔ IsMember t p m := by
  induction t using Tree.forall_of_children generalizing p with
  | step t ih =>
    rw [placedMembers_eq, PlacedTree.mem_below]
    constructor
    · rintro ⟨⟨q, s⟩, hy, ⟨q', s'⟩, hz, heq⟩
      obtain ⟨rfl, rfl⟩ := Prod.mk.inj heq
      obtain ⟨i, r, rfl, hchild⟩ := Tree.mem_placedChildren.mp hy
      simp only [membersAt] at hz
      split at hz
      · rename_i henum
        exact .behind hchild henum ((ih (r, s) (List.mem_of_getElem? hchild)).mp hz)
      · rename_i hother
        obtain ⟨rfl, rfl⟩ := Prod.mk.inj (List.mem_singleton.mp hz)
        exact .here hchild hother
    · intro hmember
      cases hmember with
      | @here _ _ i r hchild hother =>
        refine ⟨([i], m), Tree.mem_placedChildren.mpr ⟨i, r, rfl, hchild⟩, ([], m), ?_, rfl⟩
        rw [membersAt, if_neg hother]
        exact List.mem_singleton_self _
      | @behind _ e _ i r q hchild henum hmember =>
        refine ⟨([i], e), Tree.mem_placedChildren.mpr ⟨i, r, rfl, hchild⟩, (q, m), ?_, rfl⟩
        rw [membersAt, if_pos henum]
        exact (ih (r, e) (List.mem_of_getElem? hchild)).mpr hmember

mutual

private theorem map_snd_placedMembers : ∀ t : Tree, (placedMembers t).map Prod.snd = members t
  | .leaf .. => rfl
  | .branch _ cs => map_snd_placedMembersFrom 0 cs

private theorem map_snd_placedMembersFrom (i : Nat) : ∀ cs : List (Option Role × Tree),
    (placedMembersFrom i cs).map Prod.snd = membersAmong cs
  | [] => rfl
  | (_, t) :: ts => by
    rw [placedMembersFrom, membersAmong, List.map_append, map_snd_placedMembersFrom (i + 1) ts]
    split
    · rw [List.map_map, ← map_snd_placedMembers t]
      rfl
    · rfl

end

private theorem at?_of_isMember (h : IsMember t p m) : t.at? p = some m := by
  induction h with
  | here hchild => exact Tree.at?_of_child hchild
  | behind hchild _ _ ih =>
    rw [Tree.at?_cons, hchild]
    exact ih

/-- The members of a declared type with their places. -/
def typeMembers (t : Tree) : List PlacedTree := below (t.placedAs .body) placedMembers

theorem sideBySide_typeMembers (t : Tree) : SideBySide (typeMembers t) :=
  (Tree.sideBySide_placedAs .body t).below fun _ _ => sideBySide_placedMembers _

theorem mem_typeMembers : (p, m) ∈ typeMembers t ↔ HasMember t p m := by
  rw [typeMembers, PlacedTree.mem_below]
  constructor
  · rintro ⟨⟨q, b⟩, hy, ⟨q', m'⟩, hz, heq⟩
    obtain ⟨rfl, rfl⟩ := Prod.mk.inj heq
    obtain ⟨i, rfl, hbody⟩ := Tree.mem_placedAs.mp hy
    exact ⟨i, q', b, rfl, hbody, mem_placedMembers.mp hz⟩
  · rintro ⟨i, q, b, rfl, hbody, hmember⟩
    exact ⟨([i], b), Tree.mem_placedAs.mpr ⟨i, rfl, hbody⟩, (q, m), mem_placedMembers.mpr hmember, rfl⟩

theorem at?_of_hasMember (h : HasMember t p m) : t.at? p = some m := by
  obtain ⟨i, q, b, rfl, hbody, hmember⟩ := h
  rw [Tree.at?_cons, hbody]
  exact at?_of_isMember hmember

private theorem allAs_body (ht : t.IsFormed) (hkind : t.kind.isTypeDeclaration) :
    t.allAs .body = (t.childAs .body).toList := by
  refine ht.meetsDemands.allAs_eq ?_
  cases hk : t.kind <;> rw [hk] at hkind <;> first | exact .tail _ (.head _) | cases hkind

theorem map_snd_typeMembers (ht : t.IsFormed) (hkind : t.kind.isTypeDeclaration) :
    (typeMembers t).map Prod.snd = ((t.childAs .body).map members).getD [] := by
  have hmembers : ∀ b : Tree, (placedMembers b).map Prod.snd = members b := map_snd_placedMembers
  rw [typeMembers, PlacedTree.map_snd_below, Tree.map_snd_placedAs, allAs_body ht hkind]
  simp only [hmembers]
  cases t.childAs .body with
  | none => rfl
  | some b => exact List.flatMap_singleton _ _

mutual

private theorem memberTypes_eq (outer : List String) : ∀ t : Tree,
    memberTypes outer t = ((members t).filter (·.kind.isTypeDeclaration)).flatMap (types outer)
  | .leaf .. => rfl
  | .branch _ cs => memberTypesAmong_eq outer cs

private theorem memberTypesAmong_eq (outer : List String) : ∀ cs : List (Option Role × Tree),
    memberTypesAmong outer cs = ((membersAmong cs).filter (·.kind.isTypeDeclaration)).flatMap (types outer)
  | [] => rfl
  | (_, t) :: ts => by
    rw [memberTypesAmong, membersAmong, List.filter_append, List.flatMap_append, memberTypesAmong_eq outer ts]
    congr 1
    split
    · rename_i hkind
      have hother : t.kind ≠ .enumBodyDeclarations := by
        intro henum
        rw [henum] at hkind
        cases hkind
      rw [if_neg hother, List.filter_cons, if_pos hkind, List.filter_nil, List.flatMap_singleton]
    · rename_i hkind
      split
      · exact memberTypes_eq outer t
      · rw [List.filter_cons, if_neg hkind, List.filter_nil, List.flatMap_nil]

end

private theorem typesOfBody_eq (outer : List String) (cs : List (Option Role × Tree)) :
    typesOfBody outer cs =
    ((((cs.filter (·.1 == some .body)).map Prod.snd).head?).map (memberTypes outer)).getD [] := by
  induction cs with
  | nil => rfl
  | cons x cs ih =>
    rw [typesOfBody]
    by_cases hbody : x.1 = some .body
    · rw [if_pos hbody, List.filter_cons_of_pos (by simp [hbody])]
      rfl
    · rw [if_neg hbody, List.filter_cons_of_neg (by simp [hbody])]
      exact ih

/-- The types among the members of a declared type, with their places. -/
def innerTypes (t : Tree) : List PlacedTree := (typeMembers t).filter (·.2.kind.isTypeDeclaration)

theorem mem_innerTypes : (p, m) ∈ innerTypes t ↔ HasMember t p m ∧ m.kind.isTypeDeclaration := by
  rw [innerTypes, List.mem_filter, mem_typeMembers]

theorem sideBySide_innerTypes (t : Tree) : SideBySide (innerTypes t) := (sideBySide_typeMembers t).filter _

/-- A declared type and the types declared in it. -/
theorem types_eq (ht : t.IsFormed) (hkind : t.kind.isTypeDeclaration) (outer : List String) :
    ∃ name, t.childAs .name = some name ∧ types outer t = typeDeclaration outer name.text t ::
      (innerTypes t).flatMap fun x => types (outer ++ [name.text]) x.2 := by
  obtain ⟨name, hname⟩ := ht.meetsDemands.exists_childAs (r := .name) (by
    cases hk : t.kind <;> rw [hk] at hkind <;> first | exact .head _ | cases hkind)
  refine ⟨name, hname, ?_⟩
  have hinner : (innerTypes t).flatMap (fun x => types (outer ++ [name.text]) x.2) =
      ((t.childAs .body).map (memberTypes (outer ++ [name.text]))).getD [] := by
    have hdeclared : (innerTypes t).map Prod.snd =
        (((t.childAs .body).map members).getD []).filter (·.kind.isTypeDeclaration) := by
      rw [← map_snd_typeMembers ht hkind, List.filter_map]
      rfl
    rw [← List.flatMap_map (f := Prod.snd) (g := types (outer ++ [name.text])), hdeclared]
    cases t.childAs .body with
    | none => rfl
    | some b => exact (memberTypes_eq _ b).symm
  rw [hinner]
  cases t with
  | leaf => cases hname
  | branch k cs =>
    rw [types, hname]
    exact congrArg _ (typesOfBody_eq _ cs)

/-- What holds of a declared type whenever it holds of the types among its members holds of all. -/
theorem forall_of_innerTypes {motive : Tree → Prop}
    (step : ∀ t, t.IsFormed → t.kind.isTypeDeclaration → (∀ x ∈ innerTypes t, motive x.2) → motive t)
    (ht : t.IsFormed) (hkind : t.kind.isTypeDeclaration) : motive t := by
  induction t using Tree.forall_of_below with
  | step t ih =>
    refine step t ht hkind fun x hx => ?_
    obtain ⟨hmember, hdeclares⟩ := mem_innerTypes.mp hx
    have hat := at?_of_hasMember hmember
    obtain ⟨i, q, b, hplace, -⟩ := hmember
    exact ih x.1 x.2 (hplace ▸ List.cons_ne_nil i q) hat (ht.at? hat) hdeclares

end StructureGraph.Java.Extraction
