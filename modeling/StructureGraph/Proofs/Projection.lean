import StructureGraph.Projection
import StructureGraph.Proofs.Graph.Query
import StructureGraph.Proofs.Ingestion

namespace StructureGraph

open StructureGraph.Graph
open StructureGraph.Graph.PropertyGraph

namespace Projection

/-- The list has just the things with a property, in ascending order and each of them once. -/
def Lists {α : Type} (le : α → α → Bool) (p : α → Prop) (l : List α) : Prop :=
  l.Pairwise (fun a b => le a b ∧ a ≠ b) ∧ ∀ a, a ∈ l ↔ p a

section Orders

variable {α : Type} {le : α → α → Bool} {p q : α → Prop} {l : List α}

theorem Lists.congr (h : Lists le p l) (hpq : ∀ a, p a ↔ q a) : Lists le q l :=
  ⟨h.1, fun a => (h.2 a).trans (hpq a)⟩

private theorem lists_mergeSort (htrans : ∀ a b c, le a b → le b c → le a c)
    (htotal : ∀ a b, le a b || le b a) (hl : l.Nodup) (hp : ∀ a, a ∈ l ↔ p a) :
    Lists le p (l.mergeSort le) := by
  have hnodup : (l.mergeSort le).Pairwise (· ≠ ·) :=
    (List.mergeSort_perm l le).nodup_iff.mpr hl
  exact ⟨(List.pairwise_mergeSort htrans htotal l).and hnodup,
    fun a => List.mem_mergeSort.trans (hp a)⟩

private theorem textLe_iff (a b : String) : textLe a b ↔ a ≤ b := by simp [textLe]

private theorem textLe_trans (a b c : String) (hab : textLe a b) (hbc : textLe b c) : textLe a c := by
  rw [textLe_iff] at *
  exact hab.trans hbc

private theorem textLe_total (a b : String) : textLe a b || textLe b a := by
  rw [Bool.or_eq_true, textLe_iff, textLe_iff]
  exact le_total a b

theorem textsLe_cons (a b : String) (as bs : List String) :
    textsLe (a :: as) (b :: bs) ↔ a < b ∨ a = b ∧ textsLe as bs := by
  simp [textsLe, -String.lt_iff_ltb]

private theorem textsLe_trans (as bs cs : List String) (hab : textsLe as bs) (hbc : textsLe bs cs) :
    textsLe as cs := by
  induction as generalizing bs cs with
  | nil => rfl
  | cons a as ih =>
    cases bs with
    | nil => cases hab
    | cons b bs =>
      cases cs with
      | nil => cases hbc
      | cons c cs =>
        rw [textsLe_cons] at *
        rcases hab with hab | ⟨rfl, hab⟩
        · rcases hbc with hbc | ⟨rfl, -⟩
          · exact .inl (hab.trans hbc)
          · exact .inl hab
        · exact hbc.imp_right fun h => ⟨h.1, ih bs cs hab h.2⟩

private theorem textsLe_total (as bs : List String) : textsLe as bs || textsLe bs as := by
  induction as generalizing bs with
  | nil => rfl
  | cons a as ih =>
    cases bs with
    | nil => rfl
    | cons b bs =>
      rw [Bool.or_eq_true, textsLe_cons, textsLe_cons]
      rcases lt_trichotomy a b with hlt | rfl | hgt
      · exact .inl (.inl hlt)
      · exact (Bool.or_eq_true _ _ ▸ ih bs).imp (fun h => .inr ⟨rfl, h⟩) fun h => .inr ⟨rfl, h⟩
      · exact .inr (.inl hgt)

end Orders

theorem mem_dropRepeated {a : String} {ss : List String} : a ∈ dropRepeated ss ↔ a ∈ ss := by
  fun_induction dropRepeated ss with
  | case1 b ss ih => simp [ih]
  | case2 b c ss _ ih => rw [List.mem_cons, ih, List.mem_cons (a := a) (b := b)]
  | case3 ss _ => rfl

private theorem dropRepeated_sorted {ss : List String} (h : ss.Pairwise (· ≤ ·)) :
    (dropRepeated ss).Pairwise (· < ·) := by
  fun_induction dropRepeated ss with
  | case1 b ss ih => exact ih h.tail
  | case2 b c ss hne ih =>
    obtain ⟨hb, hrest⟩ := List.pairwise_cons.mp h
    refine List.pairwise_cons.mpr ⟨fun a ha => ?_, ih hrest⟩
    have hbc : b < c := lt_of_le_of_ne (hb c (by simp)) hne
    rcases List.mem_cons.mp (mem_dropRepeated.mp ha) with rfl | ha
    · exact hbc
    · exact hbc.trans_le ((List.pairwise_cons.mp hrest).1 a ha)
  | case3 ss hss =>
    match ss, hss with
    | [], _ => exact .nil
    | [a], _ => exact List.pairwise_singleton _ a
    | a :: b :: ss, hss => exact (hss a b ss rfl).elim

/-- Sorting and dropping repetitions makes the list of all that there is. -/
theorem lists_dropRepeated {l : List String} {p : String → Prop} (hp : ∀ a, a ∈ l ↔ p a) :
    Lists textLe p (dropRepeated (l.mergeSort textLe)) := by
  have hsorted : (l.mergeSort textLe).Pairwise (· ≤ ·) :=
    (List.pairwise_mergeSort textLe_trans textLe_total l).imp fun h => (textLe_iff _ _).mp h
  refine ⟨(dropRepeated_sorted hsorted).imp fun hlt => ?_, fun a => ?_⟩
  · exact ⟨(textLe_iff _ _).mpr hlt.le, hlt.ne⟩
  · rw [mem_dropRepeated, List.mem_mergeSort, hp]

/-- The graph that facts make of nothing. -/
structure MadeOf (k : MethodKeying) (fs : List Fact) (g : PropertyGraph) : Prop where
  integrity : g.Integrity
  mem_keys : ∀ key, key ∈ g.keys ↔ ∃ f ∈ fs, key ∈ f.keys k
  node? : ∀ key, g.node? key = fs.findSome? (·.node? k key)
  mem_relationships : ∀ r, r ∈ g.relationships ↔ ∃ f ∈ fs, f.relationship? k = some r

theorem madeOf_of_ingested {k : MethodKeying} {fs : List Fact} {g : PropertyGraph}
    {report : IngestReport} (h : Ingested k fs .empty g report) :
    MadeOf k (fs.filter (·.isAccepted k)) g where
  integrity := h.integrity
  mem_keys key := by
    rw [h.mem_keys]
    simp [PropertyGraph.keys, PropertyGraph.empty, and_assoc]
  node? key := by
    have hempty : PropertyGraph.empty.node? key = none := rfl
    rw [h.node?, hempty, Option.none_or]
  mem_relationships r := by
    rw [h.mem_relationships]
    simp [PropertyGraph.relationships, PropertyGraph.empty, and_assoc]

section MadeOf

variable {k : MethodKeying} {fs : List Fact} {g : PropertyGraph} {n : Node} {r : RelationKind}
  {key : NodeKey}

theorem MadeOf.form (h : MadeOf k fs g) (hn : n ∈ g.nodes) : ∃ f ∈ fs, Fact.Form k f n := by
  have hnode : g.node? n.key = some n := h.integrity.node?_eq_some_iff.mpr ⟨hn, rfl⟩
  rw [h.node?] at hnode
  obtain ⟨f, hf, hfound⟩ := List.exists_of_findSome?_eq_some hnode
  exact ⟨f, hf, Fact.form_of_mem_nodes (List.mem_of_find?_eq_some hfound)⟩

private theorem MadeOf.mem_targets (h : MadeOf k fs g) : n ∈ targets g key r ↔
    n ∈ g.nodes ∧ ∃ f ∈ fs, f.relationship? k = some ⟨key, r, n.key⟩ := by
  rw [targets, h.integrity.mem_neighbors_outgoing, h.mem_relationships]

/-- What facts relate a node to is among the targets. -/
theorem MadeOf.exists_target (h : MadeOf k fs g) {f : Fact} {t : NodeKey} (hf : f ∈ fs)
    (hr : f.relationship? k = some ⟨key, r, t⟩) : ∃ n ∈ targets g key r, n.key = t := by
  have hstored := target_mem_keys ((h.mem_relationships _).mpr ⟨f, hf, hr⟩)
  obtain ⟨n, hn, rfl⟩ := PropertyGraph.mem_keys.mp hstored
  exact ⟨n, h.mem_targets.mpr ⟨hn, f, hf, hr⟩, rfl⟩

/-- What is shown of targets is listed once each, where it gives back their keys. -/
theorem MadeOf.lists_shown {α : Type} {le : α → α → Bool} {view : Node → α} {p : α → Prop}
    (h : MadeOf k fs g) (htrans : ∀ a b c, le a b → le b c → le a c)
    (htotal : ∀ a b, le a b || le b a) (keyOf : α → NodeKey)
    (hview : ∀ n ∈ targets g key r, p (view n) ∧ n.key = keyOf (view n))
    (hp : ∀ a, p a → ∃ n ∈ targets g key r, view n = a) :
    Lists le p (((targets g key r).map view).mergeSort le) := by
  have hkeys : (targets g key r).map Node.key = ((targets g key r).map view).map keyOf := by
    rw [List.map_map]
    exact List.map_congr_left fun n hn => (hview n hn).2
  have hnodup : (((targets g key r).map view).map keyOf).Nodup :=
    hkeys ▸ h.integrity.neighbors_outgoing_nodup key r
  refine lists_mergeSort htrans htotal hnodup.of_map fun a => ?_
  rw [List.mem_map]
  constructor
  · intro hexists
    obtain ⟨n, hn, rfl⟩ := hexists
    exact (hview n hn).1
  · exact hp a

private theorem MadeOf.name_of_kind (h : MadeOf k fs g) (hn : n ∈ g.nodes)
    (hkind : n.key.kind ∈ [.classNode, .callNode, .interfaceNode, .importNode]) :
    n.name = n.key.text := by
  obtain ⟨f, -, hform⟩ := h.form hn
  exact hform.name_eq hkind

/-- The names at the other ends of relationships to nodes that are named by their keys. -/
theorem MadeOf.lists_names (h : MadeOf k fs g)
    (hr : r.targetKind ∈ [.classNode, .callNode, .interfaceNode, .importNode]) (key : NodeKey) :
    Lists textLe (fun x => ∃ f ∈ fs, f.relationship? k = some ⟨key, r, ⟨r.targetKind, x⟩⟩)
      (names g key r) := by
  refine lists_dropRepeated fun x => ?_
  rw [List.mem_map]
  constructor
  · intro hexists
    obtain ⟨n, hn, rfl⟩ := hexists
    obtain ⟨hstored, f, hf, hrelated⟩ := h.mem_targets.mp hn
    have hkind : n.key.kind = r.targetKind :=
      ((Relationship.isWellTyped_iff _).mp (Fact.isWellTyped_of_relationship? hrelated)).2
    have hkey : n.key = ⟨r.targetKind, n.name⟩ := by
      rw [h.name_of_kind hstored (hkind ▸ hr), ← hkind]
    exact ⟨f, hf, hkey ▸ hrelated⟩
  · intro hexists
    obtain ⟨f, hf, hrelated⟩ := hexists
    obtain ⟨n, hn, hkey⟩ := h.exists_target hf hrelated
    refine ⟨n, hn, ?_⟩
    rw [h.name_of_kind (h.mem_targets.mp hn).1 (by rwa [hkey]), hkey]

private theorem MadeOf.name_of_method (h : MadeOf k fs g) (hplain : ∀ f ∈ fs, f.IsPlain k)
    (hn : n ∈ g.nodes) {owner m : String} (hkey : n.key = k.key owner m)
    (hm : k = .classQualified → '.' ∉ m.toList) : n.name = m := by
  obtain ⟨f, hf, hform⟩ := h.form hn
  obtain ⟨owner', m', visibility, rfl, hm'⟩ := hform.method (by simp [hkey])
  have hname : m' = m := Fact.eq_of_key_eq hkey (fun hk => (hplain f hf).method hk m' hm') hm
  subst hname
  cases visibility <;> simp [Node.name, Fact.methodNode, Fact.node, Table.ofList, Table.get?_insert]

theorem field_fieldNode (name type visibility : String) :
    field (Fact.fieldNode name type visibility) = ⟨name, type, visibility⟩ := by
  simp [field, shown, Fact.fieldNode, Fact.node, Table.ofList, Table.get?_insert]

theorem controlFlow_controlFlowNode (kind condition : String) :
    controlFlow (Fact.controlFlowNode kind condition) = ⟨kind, condition⟩ := by
  simp [controlFlow, shown, Fact.controlFlowNode, Fact.node, Table.ofList, Table.get?_insert]

/-- A key without separators in its parts is that of no other field. -/
theorem field_of_form {f : Fact} (h : Fact.Form k f n) {x : FieldStructure}
    (hkey : n.key = .ofField x.name x.type x.visibility)
    (hx : ∀ s ∈ [x.name, x.type, x.visibility], separator ∉ s.toList) : field n = x := by
  obtain ⟨owner, name, type, visibility, -, rfl⟩ := h.field (by simp [hkey, NodeKey.ofField])
  have hparts : [name, type, visibility] = [x.name, x.type, x.visibility] :=
    eq_of_joinParts_eq rfl hx (NodeKey.mk.inj hkey).2
  simp only [List.cons.injEq, and_true] at hparts
  rw [field_fieldNode, hparts.1, hparts.2.1, hparts.2.2]

theorem controlFlow_of_form {f : Fact} (h : Fact.Form k f n) {x : ControlFlowStructure}
    (hkey : n.key = .ofControlFlow x.kind x.condition)
    (hx : ∀ s ∈ [x.kind, x.condition], separator ∉ s.toList) : controlFlow n = x := by
  obtain ⟨owner, method, kind, condition, -, rfl⟩ :=
    h.controlFlow (by simp [hkey, NodeKey.ofControlFlow])
  have hparts : [kind, condition] = [x.kind, x.condition] :=
    eq_of_joinParts_eq rfl hx (NodeKey.mk.inj hkey).2
  simp only [List.cons.injEq, and_true] at hparts
  rw [controlFlow_controlFlowNode, hparts.1, hparts.2]

private theorem MadeOf.field_eq (h : MadeOf k fs g) (hn : n ∈ g.nodes) {x : FieldStructure}
    (hkey : n.key = .ofField x.name x.type x.visibility)
    (hx : ∀ s ∈ [x.name, x.type, x.visibility], separator ∉ s.toList) : field n = x := by
  obtain ⟨f, -, hform⟩ := h.form hn
  exact field_of_form hform hkey hx

private theorem MadeOf.controlFlow_eq (h : MadeOf k fs g) (hn : n ∈ g.nodes) {x : ControlFlowStructure}
    (hkey : n.key = .ofControlFlow x.kind x.condition)
    (hx : ∀ s ∈ [x.kind, x.condition], separator ∉ s.toList) : controlFlow n = x := by
  obtain ⟨f, -, hform⟩ := h.form hn
  exact controlFlow_of_form hform hkey hx

theorem MadeOf.visibility_eq (h : MadeOf k fs g) (hn : n ∈ g.nodes)
    (hkind : n.key.kind = .methodNode) :
    n.properties.get? "visibility" = (fs.findSome? (·.visibilityOf? k n.key)).join := by
  have hnode : fs.findSome? (·.node? k n.key) = some n := by
    rw [← h.node?, h.integrity.node?_eq_some_iff]
    exact ⟨hn, rfl⟩
  have hmap : fs.findSome? (·.visibilityOf? k n.key) =
      (fs.findSome? (·.node? k n.key)).map (·.properties.get? "visibility") := by
    rw [List.map_findSome?]
    congr 1
    funext f
    exact Fact.visibilityOf?_eq hkind f
  rw [hmap, hnode]
  rfl

private theorem MadeOf.lists_classes (h : MadeOf k fs g) :
    Lists textLe (fun c => ∃ f ∈ fs, c ∈ f.classes)
      ((g.nodesOfKind .classNode).map (·.key.text)) := by
  have hkind {n : Node} (hn : n ∈ g.nodesOfKind .classNode) : n.key.kind = .classNode :=
    (mem_nodesOfKind.mp hn).2
  have hdistinct := List.pairwise_map.mp (h.integrity.nodesOfKind_nodup .classNode)
  constructor
  · refine List.pairwise_map.mpr (List.Pairwise.imp_of_mem ?_ ((sortNodes_sorted _).and hdistinct))
    intro a b ha hb hboth
    obtain ⟨hle, hne⟩ := hboth
    have hsame : a.key.kind = b.key.kind := (hkind ha).trans (hkind hb).symm
    rcases (NodeKey.le_iff a.key b.key).mp hle with hlt | ⟨-, htext⟩
    · exact absurd hlt (by simp [hsame])
    · refine ⟨(textLe_iff _ _).mpr htext, fun heq => hne ?_⟩
      obtain ⟨⟨kind, text⟩, properties⟩ := a
      obtain ⟨⟨kind', text'⟩, properties'⟩ := b
      simp_all
  · intro c
    have hstored : .ofClass c ∈ g.keys ↔ ∃ f ∈ fs, c ∈ f.classes := by
      simp only [Fact.mem_classes_iff k, h.mem_keys]
    refine Iff.trans ?_ hstored
    rw [PropertyGraph.mem_keys, List.mem_map]
    constructor
    · intro hexists
      obtain ⟨n, hn, rfl⟩ := hexists
      obtain ⟨hn, hkind⟩ := mem_nodesOfKind.mp hn
      exact ⟨n, hn, by rw [NodeKey.ofClass, ← hkind]⟩
    · intro hexists
      obtain ⟨n, hn, hkey⟩ := hexists
      refine ⟨n, mem_nodesOfKind.mpr ⟨hn, ?_⟩, ?_⟩
      · rw [hkey, NodeKey.ofClass]
      · rw [hkey, NodeKey.ofClass]

private theorem MadeOf.field_of_mem_targets (h : MadeOf k fs g) (hplain : ∀ f ∈ fs, f.IsPlain k)
    {c : String} (hn : n ∈ targets g (.ofClass c) .hasField) :
    .fieldDeclared c (field n).name (field n).type (field n).visibility ∈ fs ∧
      n.key = .ofField (field n).name (field n).type (field n).visibility := by
  obtain ⟨hstored, f, hf, hrelated⟩ := h.mem_targets.mp hn
  obtain ⟨name, type, visibility, rfl, hkey⟩ := Fact.relationship?_hasField.mp hrelated
  have hfield : field n = ⟨name, type, visibility⟩ := h.field_eq hstored hkey
    fun s hs => (hplain _ hf).texts s (List.mem_cons_of_mem _ hs)
  rw [hfield]
  exact ⟨hf, hkey⟩

private theorem MadeOf.lists_fields (h : MadeOf k fs g) (hplain : ∀ f ∈ fs, f.IsPlain k) (c : String) :
    Lists fieldLe (fun x => .fieldDeclared c x.name x.type x.visibility ∈ fs)
      (((targets g (.ofClass c) .hasField).map field).mergeSort fieldLe) := by
  refine h.lists_shown (fun _ _ _ => textsLe_trans _ _ _) (fun _ _ => textsLe_total _ _)
    (fun x => .ofField x.name x.type x.visibility)
    (fun n hn => h.field_of_mem_targets hplain hn) fun x hx => ?_
  obtain ⟨n, hn, hkey⟩ := h.exists_target hx (Fact.relationship?_hasField.mpr ⟨_, _, _, rfl, rfl⟩)
  have hparts : ∀ s ∈ [x.name, x.type, x.visibility], separator ∉ s.toList :=
    fun s hs => (hplain _ hx).texts s (List.mem_cons_of_mem _ hs)
  exact ⟨n, hn, h.field_eq (h.mem_targets.mp hn).1 hkey hparts⟩

private theorem MadeOf.controlFlow_of_mem_targets (h : MadeOf k fs g) (hplain : ∀ f ∈ fs, f.IsPlain k)
    (hn : n ∈ targets g key .contains) :
    (∃ owner method, .controlFlow owner method (controlFlow n).kind (controlFlow n).condition ∈ fs ∧
        k.key owner method = key) ∧
      n.key = .ofControlFlow (controlFlow n).kind (controlFlow n).condition := by
  obtain ⟨hstored, f, hf, hrelated⟩ := h.mem_targets.mp hn
  obtain ⟨owner, method, kind, condition, rfl, howner, hkey⟩ :=
    Fact.relationship?_contains.mp hrelated
  have hflow : controlFlow n = ⟨kind, condition⟩ := h.controlFlow_eq hstored hkey
    fun s hs => (hplain _ hf).texts s (List.mem_cons_of_mem _ (List.mem_cons_of_mem _ hs))
  rw [hflow]
  exact ⟨⟨owner, method, hf, howner⟩, hkey⟩

private theorem MadeOf.lists_controlFlow (h : MadeOf k fs g) (hplain : ∀ f ∈ fs, f.IsPlain k)
    (key : NodeKey) :
    Lists controlFlowLe
      (fun x => ∃ owner method, .controlFlow owner method x.kind x.condition ∈ fs ∧
        k.key owner method = key)
      (((targets g key .contains).map controlFlow).mergeSort controlFlowLe) := by
  refine h.lists_shown (fun _ _ _ => textsLe_trans _ _ _) (fun _ _ => textsLe_total _ _)
    (fun x => .ofControlFlow x.kind x.condition)
    (fun n hn => h.controlFlow_of_mem_targets hplain hn) fun x hexists => ?_
  obtain ⟨owner, method, hx, howner⟩ := hexists
  obtain ⟨n, hn, hkey⟩ := h.exists_target hx
    (Fact.relationship?_contains.mpr ⟨_, _, _, _, rfl, howner, rfl⟩)
  have hparts : ∀ s ∈ [x.kind, x.condition], separator ∉ s.toList :=
    fun s hs => (hplain _ hx).texts s (List.mem_cons_of_mem _ (List.mem_cons_of_mem _ hs))
  exact ⟨n, hn, h.controlFlow_eq (h.mem_targets.mp hn).1 hkey hparts⟩

private theorem MadeOf.method_of_mem_targets (h : MadeOf k fs g) (hplain : ∀ f ∈ fs, f.IsPlain k)
    {c : String} (hn : n ∈ targets g (.ofClass c) .hasMethod) :
    (∃ visibility, .methodDeclared c n.name visibility ∈ fs) ∧ n.key = k.key c n.name := by
  obtain ⟨hstored, f, hf, hrelated⟩ := h.mem_targets.mp hn
  obtain ⟨m, visibility, rfl, hkey⟩ := Fact.relationship?_hasMethod.mp hrelated
  have hname : n.name = m :=
    h.name_of_method hplain hstored hkey fun hk => (hplain _ hf).method hk m rfl
  rw [hname]
  exact ⟨⟨visibility, hf⟩, hkey⟩

private theorem MadeOf.lists_methods (h : MadeOf k fs g) (hplain : ∀ f ∈ fs, f.IsPlain k) (c : String) :
    Lists textLe (fun m => ∃ visibility, .methodDeclared c m visibility ∈ fs)
      ((classStructure g (.ofClass c)).methods.map MethodStructure.name) := by
  have hnames : (classStructure g (.ofClass c)).methods.map MethodStructure.name =
      ((targets g (.ofClass c) .hasMethod).map Node.name).mergeSort textLe := by
    have hsort := List.map_mergeSort (r := fun a b => textLe a.name b.name) (s := textLe)
      (f := MethodStructure.name) (l := (targets g (.ofClass c) .hasMethod).map (method g))
      fun _ _ _ _ => rfl
    rw [List.map_map] at hsort
    exact hsort
  rw [hnames]
  refine h.lists_shown textLe_trans textLe_total (k.key c)
    (fun n hn => h.method_of_mem_targets hplain hn) fun m hexists => ?_
  obtain ⟨visibility, hm⟩ := hexists
  obtain ⟨n, hn, hkey⟩ := h.exists_target hm (Fact.relationship?_hasMethod.mpr ⟨_, _, rfl, rfl⟩)
  exact ⟨n, hn, h.name_of_method hplain (h.mem_targets.mp hn).1 hkey
    fun hk => (hplain _ hm).method hk m rfl⟩

end MadeOf

/-- What is shown of the method with a key is what the facts say of it. -/
structure ShowsMethod (k : MethodKeying) (fs : List Fact) (key : NodeKey) (m : MethodStructure) :
    Prop where
  calls : Lists textLe
    (fun callee => ∃ owner caller, .methodCall owner caller callee ∈ fs ∧ k.key owner caller = key)
    m.calls
  controlFlow : Lists controlFlowLe
    (fun x => ∃ owner method, .controlFlow owner method x.kind x.condition ∈ fs ∧
      k.key owner method = key)
    m.controlFlow
  /-- The first fact that mentions the method decides on its visibility. -/
  visibility : m.visibility = (fs.findSome? (·.visibilityOf? k key)).join

/-- What is shown of a class is what the facts say of it. -/
structure ShowsClass (k : MethodKeying) (fs : List Fact) (c : ClassStructure) : Prop where
  parents : Lists textLe (fun x => .inherits c.name x ∈ fs) c.parents
  interfaces : Lists textLe (fun x => .implements c.name x ∈ fs) c.interfaces
  imports : Lists textLe (fun x => .imports c.name x ∈ fs) c.imports
  fields : Lists fieldLe (fun x => .fieldDeclared c.name x.name x.type x.visibility ∈ fs) c.fields
  methods : Lists textLe (fun m => ∃ visibility, .methodDeclared c.name m visibility ∈ fs)
    (c.methods.map MethodStructure.name)
  shows_methods : ∀ m ∈ c.methods, ShowsMethod k fs (k.key c.name m.name) m

section MadeOf

variable {k : MethodKeying} {fs : List Fact} {g : PropertyGraph}

private theorem exists_mem_iff {p : Fact → Prop} {f : Fact} (hp : ∀ f', p f' ↔ f' = f) :
    (∃ f' ∈ fs, p f') ↔ f ∈ fs := by
  simp [hp]

private theorem MadeOf.showsMethod (h : MadeOf k fs g) (hplain : ∀ f ∈ fs, f.IsPlain k) {n : Node}
    (hn : n ∈ g.nodes) (hkind : n.key.kind = .methodNode) :
    ShowsMethod k fs n.key (method g n) where
  calls := (h.lists_names (r := .calls) (by decide) n.key).congr fun callee => by
    constructor
    · intro hexists
      obtain ⟨f, hf, hrelated⟩ := hexists
      obtain ⟨owner, caller, rfl, hkey⟩ := Fact.relationship?_calls.mp hrelated
      exact ⟨owner, caller, hf, hkey⟩
    · intro hexists
      obtain ⟨owner, caller, hf, hkey⟩ := hexists
      exact ⟨_, hf, Fact.relationship?_calls.mpr ⟨owner, caller, rfl, hkey⟩⟩
  controlFlow := h.lists_controlFlow hplain n.key
  visibility := h.visibility_eq hn hkind

private theorem MadeOf.showsClass (h : MadeOf k fs g) (hplain : ∀ f ∈ fs, f.IsPlain k) (c : String) :
    ShowsClass k fs (classStructure g (.ofClass c)) where
  parents := (h.lists_names (r := .inherits) (by decide) (.ofClass c)).congr
    fun _ => exists_mem_iff fun _ => Fact.relationship?_inherits
  interfaces := (h.lists_names (r := .implements) (by decide) (.ofClass c)).congr
    fun _ => exists_mem_iff fun _ => Fact.relationship?_implements
  imports := (h.lists_names (r := .imports) (by decide) (.ofClass c)).congr
    fun _ => exists_mem_iff fun _ => Fact.relationship?_imports
  fields := h.lists_fields hplain c
  methods := h.lists_methods hplain c
  shows_methods m hm := by
    obtain ⟨n, hn, rfl⟩ := List.mem_map.mp (List.mem_mergeSort.mp hm)
    have hkey : n.key = k.key c n.name := (h.method_of_mem_targets hplain hn).2
    have hshows := h.showsMethod hplain (h.mem_targets.mp hn).1 (by simp [hkey])
    rwa [hkey] at hshows

end MadeOf

/-- After ingestion into nothing the projection shows just what the accepted facts say. -/
theorem project_shows_accepted_facts (k : MethodKeying) (fs : List Fact)
    (hplain : ∀ f ∈ fs, f.IsPlain k) (name : Option String) :
    ∃ g report, Store.memory.ingestAll k .bestEffort .empty fs = (g, .ok report) ∧
      report.failures.map Prod.fst = fs.filter (!·.isAccepted k) ∧
      Lists textLe (fun c => ∃ f ∈ fs.filter (·.isAccepted k), c ∈ f.classes)
        ((project g name .all).classes.map ClassStructure.name) ∧
      ∀ c ∈ (project g name .all).classes, ShowsClass k (fs.filter (·.isAccepted k)) c := by
  obtain ⟨g, report, hrun, hingested⟩ := ingestAll_effect integrity_empty k fs
  have hmade := madeOf_of_ingested hingested
  refine ⟨g, report, hrun, hingested.failed_facts, ?_, fun c hc => ?_⟩
  · simpa [project, selected, classStructure, Function.comp_def] using hmade.lists_classes
  · obtain ⟨n, hn, rfl⟩ := List.mem_map.mp hc
    have hkey : n.key = .ofClass n.key.text := by
      rw [NodeKey.ofClass, ← (mem_nodesOfKind.mp hn).2]
    rw [hkey]
    exact hmade.showsClass (fun f hf => hplain f (List.mem_of_mem_filter hf)) n.key.text

theorem project_shows_accepted_facts_qualified :
    let fs : List Fact :=
      [.methodCall "A" "run" "print", .methodDeclared "A" "run" (some "public"), .classDeclared " "]
    (∀ f ∈ fs, f.IsPlain .classQualified) ∧
      ∃ g report, Store.memory.ingestAll .classQualified .bestEffort .empty fs = (g, .ok report) ∧
        "A" ∈ (project g none .all).classes.map ClassStructure.name ∧
        " " ∉ (project g none .all).classes.map ClassStructure.name := by
  intro fs
  have hplain : ∀ f ∈ fs, f.IsPlain .classQualified := by
    simp only [fs, List.forall_mem_cons]
    exact ⟨⟨by decide +kernel, by decide +kernel⟩, ⟨by decide +kernel, by decide +kernel⟩,
      ⟨by decide +kernel, by decide +kernel⟩, by simp⟩
  obtain ⟨g, report, hrun, -, hclasses, -⟩ :=
    project_shows_accepted_facts .classQualified fs hplain none
  exact ⟨hplain, g, report, hrun, (hclasses.2 "A").mpr (by decide +kernel),
    fun h => absurd ((hclasses.2 " ").mp h) (by decide +kernel)⟩

end Projection

end StructureGraph
