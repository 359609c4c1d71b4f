import StructureGraph.Proofs.Java.Contents
import StructureGraph.Proofs.Java.Members

namespace StructureGraph.Java.Extraction

open Syntax
open PlacedTree (below SideBySide InPreorder)

def isCallable (k : Kind) : Bool := k == .methodDeclaration || isConstructor k

/-- The tree at the place in a member is one that calls are looked for in: the body of a method or
constructor, the value of a field, or the member itself if it is an initializer block or an enum constant. -/
inductive IsArea (m : Tree) : List Nat → Tree → Prop
  | body {a : Tree} {i : Nat} : isCallable m.kind → m.children[i]? = some (some .body, a) → IsArea m [i] a
  | value {d a : Tree} {i j : Nat} : isField m.kind → m.children[i]? = some (some .declarator, d) →
    d.children[j]? = some (some .value, a) → IsArea m [i, j] a
  | initializer : m.kind = .staticInitializer ∨ m.kind = .block ∨ m.kind = .enumConstant → IsArea m [] m

/-- The areas of a member. -/
def areasOf (m : Tree) : List PlacedTree :=
  if isCallable m.kind then m.placedAs .body
  else if isField m.kind then below (m.placedAs .declarator) (Tree.placedAs .value)
  else if m.kind = .staticInitializer ∨ m.kind = .block ∨ m.kind = .enumConstant then [([], m)]
  else []

variable {t m a : Tree} {p : List Nat} {ms : List PlacedTree}

private theorem isCallable_of_isField {k : Kind} (h : isField k) : isCallable k = false := by
  cases k <;> first | rfl | cases h

private theorem sideBySide_areasOf (m : Tree) : SideBySide (areasOf m) := by
  rw [areasOf]
  split
  · exact Tree.sideBySide_placedAs _ _
  · split
    · exact (Tree.sideBySide_placedAs _ _).below fun _ _ => Tree.sideBySide_placedAs _ _
    · split
      · exact List.pairwise_singleton _ _
      · exact List.Pairwise.nil

private theorem at?_of_mem_areasOf : ∀ x ∈ areasOf m, m.at? x.1 = some x.2 := by
  rw [areasOf]
  split
  · exact Tree.at?_of_mem_placedAs
  · split
    · exact PlacedTree.at?_of_mem_below Tree.at?_of_mem_placedAs fun _ _ => Tree.at?_of_mem_placedAs
    · split
      · exact List.forall_mem_singleton.mpr rfl
      · exact nofun

private theorem isArea_of_mem_areasOf (h : (p, a) ∈ areasOf m) : IsArea m p a := by
  rw [areasOf] at h
  split at h
  · rename_i hcallable
    obtain ⟨i, rfl, hchild⟩ := Tree.mem_placedAs.mp h
    exact .body hcallable hchild
  · split at h
    · rename_i hfield
      obtain ⟨⟨q, d⟩, hd, ⟨q', v⟩, hv, heq⟩ := PlacedTree.mem_below.mp h
      obtain ⟨rfl, rfl⟩ := Prod.mk.inj heq
      obtain ⟨i, rfl, hi⟩ := Tree.mem_placedAs.mp hd
      obtain ⟨j, rfl, hj⟩ := Tree.mem_placedAs.mp hv
      exact .value hfield hi hj
    · split at h
      · rename_i hkind
        obtain ⟨rfl, rfl⟩ := Prod.mk.inj (List.mem_singleton.mp h)
        exact .initializer hkind
      · cases h

private theorem mem_areasOf : (p, a) ∈ areasOf m ↔ IsArea m p a := by
  refine ⟨isArea_of_mem_areasOf, fun h => ?_⟩
  cases h with
  | @body _ i hcallable hchild =>
    rw [areasOf, if_pos hcallable]
    exact Tree.mem_placedAs.mpr ⟨i, rfl, hchild⟩
  | @value d _ i j hfield hi hj =>
    rw [areasOf, if_neg (by simp [isCallable_of_isField hfield]), if_pos hfield]
    exact PlacedTree.mem_below.mpr
      ⟨([i], d), Tree.mem_placedAs.mpr ⟨i, rfl, hi⟩, ([j], a), Tree.mem_placedAs.mpr ⟨j, rfl, hj⟩, rfl⟩
  | initializer hkind =>
    obtain ⟨hcallable, hfield⟩ : isCallable m.kind = false ∧ isField m.kind = false := by
      rcases hkind with h | h | h <;> rw [h] <;> exact ⟨rfl, rfl⟩
    simp [areasOf, hcallable, hfield, hkind]

/-- The nodes of the areas of some members that lie in no type declared there. -/
def areaNodes (ms : List PlacedTree) : List PlacedTree := below (below ms areasOf) outerNodes

private theorem areaNodes_flatMap (ms : List PlacedTree) :
    areaNodes ms = ms.flatMap fun x => areaNodes [x] := by
  simp only [areaNodes, below, List.flatMap_assoc, List.flatMap_cons, List.flatMap_nil, List.append_nil]

private theorem inPreorder_areaNodes (hms : SideBySide ms) : InPreorder (areaNodes ms) :=
  (hms.below fun _ _ => sideBySide_areasOf _).inPreorder_below fun _ _ => inPreorder_outerNodes _

private theorem at?_of_mem_areaNodes (hms : ∀ x ∈ ms, t.at? x.1 = some x.2) :
    ∀ x ∈ areaNodes ms, t.at? x.1 = some x.2 :=
  PlacedTree.at?_of_mem_below (PlacedTree.at?_of_mem_below hms fun _ _ => at?_of_mem_areasOf)
    fun _ _ => at?_of_mem_outerNodes

/-- What the nodes of areas put down is the contents of the areas. -/
theorem flatMap_areaNodes (ht : t.IsFormed) (hms : ∀ x ∈ ms, t.at? x.1 = some x.2) :
    (areaNodes ms).flatMap (fun x => (ownContents x.2).calls) =
      ms.flatMap fun x => (areasOf x.2).flatMap fun a => (contents a.2).calls := by
  simp only [areaNodes, below, List.flatMap_assoc, List.flatMap_map]
  refine List.flatMap_congr fun x hx => List.flatMap_congr fun a ha => ?_
  have ha : a.2.IsFormed := (ht.at? (hms x hx)).at? (at?_of_mem_areasOf a ha)
  exact (contents_eq Contents.calls rfl (fun _ _ => rfl) ha).symm

/-- A call lies in an area of a member and in no type declared there. -/
def IsAreaCall (t : Tree) (p : List Nat) : Prop :=
  ∃ q m q' a r s, HasMember t q m ∧ IsArea m q' a ∧ a.at? r = some s ∧ IsOuter a r ∧ isCall s.kind ∧
    p = q ++ q' ++ r

private theorem mem_placesOf_areaNodes :
    p ∈ placesOf isCall (areaNodes (typeMembers t)) ↔ IsAreaCall t p := by
  rw [mem_placesOf]
  constructor
  · rintro ⟨s, hs, hcall⟩
    obtain ⟨⟨q, a⟩, ha, ⟨r, s'⟩, hr, heq⟩ := PlacedTree.mem_below.mp hs
    obtain ⟨rfl, rfl⟩ := Prod.mk.inj heq
    obtain ⟨⟨q, m⟩, hm, ⟨q', a'⟩, harea, heq⟩ := PlacedTree.mem_below.mp ha
    obtain ⟨rfl, rfl⟩ := Prod.mk.inj heq
    obtain ⟨hat, houter⟩ := mem_outerNodes.mp hr
    exact ⟨q, m, q', a, r, s, mem_typeMembers.mp hm, mem_areasOf.mp harea, hat, houter, hcall, rfl⟩
  · rintro ⟨q, m, q', a, r, s, hm, harea, hat, houter, hcall, rfl⟩
    have ha : (q ++ q', a) ∈ below (typeMembers t) areasOf :=
      PlacedTree.mem_below.mpr ⟨(q, m), mem_typeMembers.mpr hm, (q', a), mem_areasOf.mpr harea, rfl⟩
    exact ⟨s, PlacedTree.mem_below.mpr ⟨_, ha, (r, s), mem_outerNodes.mpr ⟨hat, houter⟩, rfl⟩, hcall⟩

private theorem calls_foldl (f : Tree → Contents) (xs : List Tree) (c : Contents) :
    (xs.foldl (fun a x => a ++ f x) c).calls = c.calls ++ xs.flatMap fun x => (f x).calls := by
  induction xs generalizing c with
  | nil => rw [List.foldl_nil, List.flatMap_nil, List.append_nil]
  | cons x xs ih =>
    rw [List.foldl_cons, ih, List.flatMap_cons, ← List.append_assoc]
    rfl

private theorem calls_areasOf (m : Tree) : (areasOf m).flatMap (fun a => (contents a.2).calls) =
    ((areasOf m).map Prod.snd).flatMap fun a => (contents a).calls := by
  rw [List.flatMap_map]

private theorem demands_of_isCallable {k : Kind} (h : isCallable k) :
    k.demands = [.some .name, .atMostOne .body] := by
  cases k <;> first | rfl | cases h

private theorem method?_of_isCallable (hm : m.IsFormed) (hkind : isCallable m.kind) (access : Visibility) :
    ∃ b, method? access m = some b ∧ b.calls = (areasOf m).flatMap fun a => (contents a.2).calls := by
  have hdemands := demands_of_isCallable hkind
  obtain ⟨name, hname⟩ := hm.meetsDemands.exists_childAs (r := .name) (by rw [hdemands]; exact .head _)
  have hbody := hm.meetsDemands.allAs_eq (r := .body) (by rw [hdemands]; exact .tail _ (.head _))
  have hmethod : ∃ b, method? access m = some b ∧
      b.calls = (((m.childAs .body).map contents).getD .empty).calls := by
    rw [method?, hname]
    exact ⟨_, rfl, rfl⟩
  obtain ⟨b, hb, hcalls⟩ := hmethod
  refine ⟨b, hb, ?_⟩
  rw [hcalls, calls_areasOf, areasOf, if_pos hkind, Tree.map_snd_placedAs, hbody]
  cases m.childAs .body with
  | none => rfl
  | some a => rw [Option.toList_some, List.flatMap_singleton, Option.map_some, Option.getD_some]

private theorem demands_of_isField {k : Kind} (h : isField k) :
    k.demands = [.only .declarator .variableDeclarator] := by
  cases k <;> first | rfl | cases h

private theorem values_of_isField (hm : m.IsFormed) (hkind : isField m.kind) :
    (m.allAs .declarator).filterMap (·.childAs .value) =
      (m.allAs .declarator).flatMap (Tree.allAs .value) := by
  rw [List.filterMap_eq_flatMap_toList]
  refine List.flatMap_congr fun d hd => ?_
  have hdeclarator := hm.meetsDemands.kind_eq (r := .declarator) (k := .variableDeclarator)
    (by rw [demands_of_isField hkind]; exact .head _) hd
  exact ((hm.of_mem_allAs hd).meetsDemands.allAs_eq (by rw [hdeclarator]; exact .tail _ (.head _))).symm

private theorem calls_initializing_of_isField (hm : m.IsFormed) (hkind : isField m.kind) :
    (initializing m).calls =
    ((m.allAs .declarator).flatMap (Tree.allAs .value)).flatMap fun a => (contents a).calls := by
  have hinitializing : initializing m =
      ((m.allAs .declarator).filterMap (·.childAs .value)).foldl (fun a v => a ++ contents v) .empty := by
    unfold isField at hkind
    unfold initializing
    split at hkind
    · rename_i hk
      rw [hk]
    · rename_i hk
      rw [hk]
    · cases hkind
  rw [hinitializing, values_of_isField hm hkind, calls_foldl]
  rfl

private theorem calls_initializing (hm : m.IsFormed) (hkind : isCallable m.kind = false) :
    (initializing m).calls = (areasOf m).flatMap fun a => (contents a.2).calls := by
  rw [calls_areasOf, areasOf, if_neg (by simp [hkind])]
  split
  · rename_i hfield
    rw [calls_initializing_of_isField hm hfield, PlacedTree.map_snd_below, Tree.map_snd_placedAs]
    simp only [Tree.map_snd_placedAs]
  · rename_i hfield
    split
    · rename_i hinitial
      have hcontents : initializing m = contents m := by
        unfold initializing
        rcases hinitial with h | h | h <;> rw [h]
      rw [hcontents]
      exact (List.flatMap_singleton _ _).symm
    · rename_i hinitial
      rw [initializing]
      split
      case h_6 => rfl
      all_goals rename_i hk; simp [hk, isField] at hfield hinitial

private theorem calls_initializing_of_isCallable (hkind : isCallable m.kind) :
    (initializing m).calls = [] := by
  rw [initializing]
  split
  case h_6 => rfl
  all_goals rename_i hk; rw [hk] at hkind; cases hkind

private theorem calls_initializer (outer : List String) (name : String) (t : Tree) :
    (typeDeclaration outer name t).initializer.calls =
      (((t.childAs .body).map members).getD []).flatMap fun m => (initializing m).calls :=
  calls_foldl initializing _ .empty

/-- The calls of a body are those at the places, in pre-order. -/
def CallsAt (t : Tree) (places : List (List Nat)) (b : Method) : Prop :=
  places.Pairwise (· < ·) ∧ List.Forall₂ (fun p c => (t.at? p).bind call? = some c) places b.calls

/-- The places of the calls that members are searched for. -/
def callPlaces (ms : List PlacedTree) : List (List Nat) := placesOf isCall (areaNodes ms)

private theorem callPlaces_flatMap (ms : List PlacedTree) :
    callPlaces ms = (ms.map fun x => callPlaces [x]).flatten := by
  rw [callPlaces, areaNodes_flatMap, placesOf, List.filter_flatMap, List.map_flatMap]
  rfl

private theorem perm_callPlaces {ms' : List PlacedTree} (h : ms.Perm ms') :
    (callPlaces ms).Perm (callPlaces ms') := by
  rw [callPlaces_flatMap, callPlaces_flatMap ms']
  exact (h.map _).flatten

theorem callPlaces_append (ms ms' : List PlacedTree) :
    callPlaces (ms ++ ms') = callPlaces ms ++ callPlaces ms' := by
  rw [callPlaces_flatMap, List.map_append, List.flatten_append, ← callPlaces_flatMap, ← callPlaces_flatMap]

private theorem callsAt_callPlaces (ht : t.IsFormed) (hms : ∀ x ∈ ms, t.at? x.1 = some x.2)
    (hside : SideBySide ms)
    {b : Method} (hb : b.calls = ms.flatMap fun x => (areasOf x.2).flatMap fun a => (contents a.2).calls) :
    CallsAt t (callPlaces ms) b := by
  refine ⟨pairwise_placesOf (inPreorder_areaNodes hside) isCall, ?_⟩
  rw [hb, ← flatMap_areaNodes ht hms]
  exact forall₂_calls ht (at?_of_mem_areaNodes hms)

private theorem callsAt_methods (ht : t.IsFormed) (hms : ∀ x ∈ ms, t.at? x.1 = some x.2)
    (kinds : Kind → Bool)
    (hkinds : ∀ k, kinds k → isCallable k) (access : Visibility) :
    List.Forall₂ (CallsAt t) ((ms.filter (kinds ·.2.kind)).map fun x => callPlaces [x])
      (((ms.map Prod.snd).filter (kinds ·.kind)).filterMap (method? access)) := by
  rw [List.filter_map, List.filterMap_map]
  refine List.forall₂_map_left_iff.mpr (forall₂_filterMap fun x hx => ?_)
  obtain ⟨hx, hkind⟩ := List.mem_filter.mp hx
  obtain ⟨b, hb, hcalls⟩ := method?_of_isCallable (ht.at? (hms x hx)) (hkinds _ hkind) access
  refine ⟨b, hb, callsAt_callPlaces ht (List.forall_mem_singleton.mpr (hms x hx)) ?_ ?_⟩
  · exact List.pairwise_singleton _ _
  · rw [hcalls, List.flatMap_singleton]

private theorem at?_of_mem_typeMembers : ∀ x ∈ typeMembers t, t.at? x.1 = some x.2 :=
  fun _ hx => at?_of_hasMember (mem_typeMembers.mp hx)

/-- Methods and constructors add nothing to the initializer. -/
theorem flatMap_initializing (ht : t.IsFormed) (hms : ∀ x ∈ ms, t.at? x.1 = some x.2) :
    (ms.flatMap fun x => (initializing x.2).calls) = (ms.filter (!isCallable ·.2.kind)).flatMap fun x =>
      (areasOf x.2).flatMap fun a => (contents a.2).calls := by
  induction ms with
  | nil => rfl
  | cons x ms ih =>
    obtain ⟨hx, hms⟩ := List.forall_mem_cons.mp hms
    rw [List.flatMap_cons, ih hms]
    by_cases hcallable : isCallable x.2.kind
    · rw [List.filter_cons_of_neg (by simp [hcallable]), calls_initializing_of_isCallable hcallable,
        List.nil_append]
    · have hother := Bool.eq_false_iff.mpr hcallable
      rw [List.filter_cons_of_pos (by simp [hother]), List.flatMap_cons,
        calls_initializing (ht.at? hx) hother]

private theorem callsAt_initializer (ht : t.IsFormed) (hkind : t.kind.isTypeDeclaration)
    (outer : List String)
    (name : String) : CallsAt t (callPlaces ((typeMembers t).filter (!isCallable ·.2.kind)))
      (typeDeclaration outer name t).initializer := by
  have hothers : ∀ x ∈ (typeMembers t).filter (!isCallable ·.2.kind), t.at? x.1 = some x.2 :=
    fun x hx => at?_of_mem_typeMembers x (List.mem_filter.mp hx).1
  refine callsAt_callPlaces ht hothers ((sideBySide_typeMembers t).filter _) ?_
  rw [calls_initializer, ← map_snd_typeMembers ht hkind, List.flatMap_map]
  exact flatMap_initializing ht at?_of_mem_typeMembers

/-- Members are methods, constructors or neither. -/
theorem perm_members (ms : List PlacedTree) :
    (ms.filter (·.2.kind == .methodDeclaration) ++ ms.filter (isConstructor ·.2.kind) ++
      ms.filter (!isCallable ·.2.kind)).Perm ms := by
  have hmethods : ms.filter (·.2.kind == .methodDeclaration) =
      (ms.filter (isCallable ·.2.kind)).filter (·.2.kind == .methodDeclaration) := by
    rw [List.filter_filter]
    refine List.filter_congr fun x _ => ?_
    cases x.2.kind <;> rfl
  have hconstructors : ms.filter (isConstructor ·.2.kind) =
      (ms.filter (isCallable ·.2.kind)).filter fun x => !(x.2.kind == .methodDeclaration) := by
    rw [List.filter_filter]
    refine List.filter_congr fun x _ => ?_
    cases x.2.kind <;> rfl
  rw [hmethods, hconstructors]
  exact ((List.filter_append_perm _ _).append_right _).trans (List.filter_append_perm _ ms)

/-- The places of the calls of a declared type, body by body. -/
def bodyPlaces (t : Tree) : List (List (List Nat)) :=
  ((typeMembers t).filter (·.2.kind == .methodDeclaration)).map (fun x => callPlaces [x]) ++
    ((typeMembers t).filter (isConstructor ·.2.kind)).map (fun x => callPlaces [x]) ++
    [callPlaces ((typeMembers t).filter (!isCallable ·.2.kind))]

private theorem callsAt_bodyPlaces (ht : t.IsFormed) (hkind : t.kind.isTypeDeclaration)
    (outer : List String)
    (name : String) : List.Forall₂ (CallsAt t) (bodyPlaces t) (typeDeclaration outer name t).bodies := by
  have hmethods := callsAt_methods ht at?_of_mem_typeMembers (· == .methodDeclaration)
    (fun k hk => Bool.or_eq_true_iff.mpr (.inl hk))
  have hconstructors := callsAt_methods ht at?_of_mem_typeMembers isConstructor
    (fun k hk => Bool.or_eq_true_iff.mpr (.inr hk))
  rw [map_snd_typeMembers ht hkind] at hmethods hconstructors
  exact List.rel_append (List.rel_append (hmethods _) (hconstructors _))
    (.cons (callsAt_initializer ht hkind outer name) .nil)

private theorem perm_bodyPlaces (t : Tree) : (bodyPlaces t).flatten.Perm (callPlaces (typeMembers t)) := by
  rw [bodyPlaces, List.flatten_append, List.flatten_append, ← callPlaces_flatMap, ← callPlaces_flatMap,
    List.flatten_singleton, ← callPlaces_append, ← callPlaces_append]
  exact perm_callPlaces (perm_members (typeMembers t))

private theorem nodup_bodyPlaces (t : Tree) : (bodyPlaces t).flatten.Nodup := by
  refine (perm_bodyPlaces t).nodup_iff.mpr ?_
  exact (pairwise_placesOf (inPreorder_areaNodes (sideBySide_typeMembers t)) isCall).imp ne_of_lt

private theorem mem_bodyPlaces : p ∈ (bodyPlaces t).flatten ↔ IsAreaCall t p :=
  (perm_bodyPlaces t).mem_iff.trans mem_placesOf_areaNodes

/-- Nothing is lost or counted twice when contents are gathered. The contents of a node hold one entry for
each node, itself or below it, that puts one down and lies in no type declaration, and they come behind
whatever was there before. And each call in the areas of a declared type is one of exactly one of its bodies,
once. -/
theorem calls_taken_once {source : String} {tree t : Tree} {q : List Nat} (htree : parse? source = some tree)
    (ht : tree.at? q = some t) :
    (∀ before : Contents, ∃ added, Covers t added ∧ before ++ contents t =
      ⟨before.calls ++ added.calls, before.locals ++ added.locals, before.branches ++ added.branches⟩) ∧
    (t.kind.isTypeDeclaration → ∀ outer name, ∃ places,
      List.Forall₂ (CallsAt t) places (typeDeclaration outer name t).bodies ∧ places.flatten.Nodup ∧
        ∀ p, p ∈ places.flatten ↔ IsAreaCall t p) := by
  have hformed : t.IsFormed := (isFormed_of_parse? htree).at? ht
  refine ⟨fun before => ⟨contents t, covers_contents hformed, rfl⟩, fun hkind outer name => ?_⟩
  have hbodies := callsAt_bodyPlaces hformed hkind outer name
  exact ⟨bodyPlaces t, hbodies, nodup_bodyPlaces t, fun _ => mem_bodyPlaces⟩

/-- A class with calls in a field, a constructor and a method, and one in a class inside the method. -/
def nestedCalls : String :=
  "class A { int x = f(g()); A() { h(); } void m() { class B { void n() { i(); } } j(); } }"

theorem calls_taken_once_nested : ∃ tree t, parse? nestedCalls = some tree ∧ tree.at? [0] = some t ∧
    t.kind.isTypeDeclaration ∧
    (typeDeclaration [] "A" t).bodies.map (fun b => b.calls.map Call.name) = [["j"], ["h"], ["f", "g"]] ∧
    ∃ places, List.Forall₂ (CallsAt t) places (typeDeclaration [] "A" t).bodies ∧ places.flatten.Nodup ∧
      ∀ p, p ∈ places.flatten ↔ IsAreaCall t p := by
  have hread : ((parse? nestedCalls).bind (·.at? [0])).any (fun t => t.kind.isTypeDeclaration &&
      decide ((typeDeclaration [] "A" t).bodies.map (fun b => b.calls.map Call.name) =
        [["j"], ["h"], ["f", "g"]])) := by
    decide +kernel
  obtain ⟨t, ht, hchecks⟩ := (Option.any_eq_true _ _).mp hread
  obtain ⟨tree, htree, hat⟩ := Option.bind_eq_some_iff.mp ht
  obtain ⟨hkind, hnames⟩ := Bool.and_eq_true_iff.mp hchecks
  exact ⟨tree, t, htree, hat, hkind, of_decide_eq_true hnames, (calls_taken_once htree hat).2 hkind [] "A"⟩

end StructureGraph.Java.Extraction
