import StructureGraph.Proofs.Projection

namespace StructureGraph

namespace Graph

/-- The relationship by which nodes of a kind belong to others. Classes stand for themselves. -/
def NodeKind.belonging? : NodeKind → Option RelationKind
  | classNode => none
  | methodNode => some .hasMethod
  | callNode => some .calls
  | controlFlowNode => some .contains
  | fieldNode => some .hasField
  | importNode => some .imports
  | interfaceNode => some .implements

private theorem NodeKind.exists_belonging {c : NodeKind} (h : c ≠ .classNode) :
    ∃ r, c.belonging? = some r := by
  cases c with
  | classNode => exact (h rfl).elim
  | _ => exact ⟨_, rfl⟩

private theorem NodeKind.ne_inherits_of_belonging? {c : NodeKind} {r : RelationKind}
    (h : c.belonging? = some r) : r ≠ .inherits := by
  cases c <;> cases h <;> exact nofun

private theorem RelationKind.eq_of_belonging?_targetKind {r r' : RelationKind}
    (h : r'.targetKind.belonging? = some r) : r = r' := by
  cases r' <;> cases h <;> rfl

private theorem RelationKind.sourceKind_cases (r : RelationKind) :
    r.sourceKind = .classNode ∨ r.sourceKind = .methodNode := by
  cases r <;> decide

private theorem NodeKey.eq_ofClass {k : NodeKey} (h : k.kind = .classNode) : k = .ofClass k.text := by
  rw [ofClass, ← h]

namespace PropertyGraph

/-- What belongs to a class, and what belongs to its methods. -/
inductive Owns (g : PropertyGraph) (c : String) : NodeKey → Prop
  | self : Owns g c (.ofClass c)
  | member {r : RelationKind} {k : NodeKey} : r ≠ .inherits →
    ⟨.ofClass c, r, k⟩ ∈ g.relationships → Owns g c k
  | part {m k : NodeKey} {r : RelationKind} : ⟨.ofClass c, .hasMethod, m⟩ ∈ g.relationships →
    ⟨m, r, k⟩ ∈ g.relationships → Owns g c k

/-- Every node that belongs to another one is related to it. -/
def IsOwned (g : PropertyGraph) : Prop :=
  ∀ n ∈ g.nodes, ∀ r, n.key.kind.belonging? = some r →
    ∃ source, ⟨source, r, n.key⟩ ∈ g.relationships

variable {g : PropertyGraph} {n : Node}

private theorem sourceKind_of_mem (htyped : ∀ r ∈ g.relationships, r.isWellTyped) {r : Relationship}
    (hr : r ∈ g.relationships) : r.source.kind = r.kind.sourceKind :=
  ((Relationship.isWellTyped_iff r).mp (htyped r hr)).1

private theorem exists_class_of_method (howned : g.IsOwned) (htyped : ∀ r ∈ g.relationships, r.isWellTyped)
    (hn : n ∈ g.nodes) (hkind : n.key.kind = .methodNode) :
    ∃ c, ⟨.ofClass c, .hasMethod, n.key⟩ ∈ g.relationships := by
  obtain ⟨source, hrelated⟩ := howned n hn .hasMethod (by rw [hkind]; rfl)
  have hsource : source.kind = .classNode := sourceKind_of_mem htyped hrelated
  rw [NodeKey.eq_ofClass hsource] at hrelated
  exact ⟨source.text, hrelated⟩

/-- Some class owns each of the nodes. -/
theorem exists_owner (howned : g.IsOwned) (htyped : ∀ r ∈ g.relationships, r.isWellTyped)
    (hn : n ∈ g.nodes) : ∃ c, .ofClass c ∈ g.keys ∧ g.Owns c n.key := by
  by_cases hclass : n.key.kind = .classNode
  · have hkey := NodeKey.eq_ofClass hclass
    refine ⟨n.key.text, mem_keys.mpr ⟨n, hn, hkey⟩, ?_⟩
    exact hkey.symm ▸ .self
  · obtain ⟨r, hr⟩ := NodeKind.exists_belonging hclass
    obtain ⟨source, hrelated⟩ := howned n hn r hr
    have hsource : source.kind = r.sourceKind := sourceKind_of_mem htyped hrelated
    rcases r.sourceKind_cases with hkind | hkind
    · rw [NodeKey.eq_ofClass (hsource.trans hkind)] at hrelated
      exact ⟨source.text, source_mem_keys hrelated,
        .member (NodeKind.ne_inherits_of_belonging? hr) hrelated⟩
    · -- What belongs to a method is owned by a class that has the method.
      obtain ⟨m, hm, rfl⟩ : ∃ m ∈ g.nodes, m.key = source := mem_keys.mp (source_mem_keys hrelated)
      obtain ⟨c, hc⟩ := exists_class_of_method howned htyped hm (hsource.trans hkind)
      exact ⟨c, source_mem_keys hc, .part hc hrelated⟩

end PropertyGraph

end Graph

open StructureGraph.Graph
open StructureGraph.Graph.PropertyGraph

/-- What is shown of a class says of a node that there is one. -/
def ClassStructure.Mentions (c : ClassStructure) (n : Node) : Prop :=
  match n.key.kind with
  | .classNode => c.name = n.key.text
  | .methodNode =>
    ∃ m ∈ c.methods, m.name = n.name ∧ m.visibility = n.properties.get? "visibility"
  | .callNode => ∃ m ∈ c.methods, n.name ∈ m.calls
  | .controlFlowNode => ∃ m ∈ c.methods, Projection.controlFlow n ∈ m.controlFlow
  | .fieldNode => Projection.field n ∈ c.fields
  | .importNode => n.name ∈ c.imports
  | .interfaceNode => n.name ∈ c.interfaces

namespace Projection

variable {g : PropertyGraph} {n : Node} {c : String} {k : NodeKey} {r : RelationKind}

theorem mem_names (h : n ∈ targets g k r) : n.name ∈ names g k r := by
  rw [names, mem_dropRepeated, List.mem_mergeSort]
  exact List.mem_map_of_mem h

private theorem method_mem_methods (h : n ∈ targets g (.ofClass c) .hasMethod) :
    method g n ∈ (classStructure g (.ofClass c)).methods :=
  List.mem_mergeSort.mpr (List.mem_map_of_mem h)

private theorem controlFlow_mem_method {m : Node} (h : n ∈ targets g m.key .contains) :
    controlFlow n ∈ (method g m).controlFlow :=
  List.mem_mergeSort.mpr (List.mem_map_of_mem h)

private theorem mentions_member (hr : r ≠ .inherits) (hn : n ∈ targets g (.ofClass c) r)
    (hkind : n.key.kind = r.targetKind) (hsource : r.sourceKind = .classNode) :
    (classStructure g (.ofClass c)).Mentions n := by
  rw [ClassStructure.Mentions, hkind]
  cases r with
  | hasMethod => exact ⟨_, method_mem_methods hn, rfl, rfl⟩
  | implements => exact mem_names hn
  | hasField => exact List.mem_mergeSort.mpr (List.mem_map_of_mem hn)
  | imports => exact mem_names hn
  | inherits => exact (hr rfl).elim
  | calls => cases hsource
  | contains => cases hsource

private theorem mentions_part {m : Node} (hm : m ∈ targets g (.ofClass c) .hasMethod)
    (hn : n ∈ targets g m.key r) (hkind : n.key.kind = r.targetKind)
    (hsource : r.sourceKind = .methodNode) : (classStructure g (.ofClass c)).Mentions n := by
  rw [ClassStructure.Mentions, hkind]
  cases r with
  | calls => exact ⟨_, method_mem_methods hm, mem_names hn⟩
  | contains => exact ⟨_, method_mem_methods hm, controlFlow_mem_method hn⟩
  | _ => cases hsource

/-- What a class owns is mentioned where the class is shown. -/
theorem mentions_of_owns (h : g.Integrity) (htyped : ∀ r ∈ g.relationships, r.isWellTyped)
    (hn : n ∈ g.nodes) (howns : g.Owns c n.key) : (classStructure g (.ofClass c)).Mentions n := by
  have htarget {k : NodeKey} {r : RelationKind} {n : Node} (hn : n ∈ g.nodes)
      (hr : ⟨k, r, n.key⟩ ∈ g.relationships) :
      n ∈ targets g k r ∧ k.kind = r.sourceKind ∧ n.key.kind = r.targetKind :=
    ⟨h.mem_neighbors_outgoing.mpr ⟨hn, hr⟩, (Relationship.isWellTyped_iff _).mp (htyped _ hr)⟩
  generalize hkey : n.key = key at howns
  cases howns with
  | self =>
    rw [ClassStructure.Mentions, hkey]
    rfl
  | member hr hrelated =>
    obtain ⟨hmem, hsource, hkind⟩ := htarget hn (hkey ▸ hrelated)
    exact mentions_member hr hmem hkind hsource.symm
  | part hmethod hrelated =>
    obtain ⟨m, hm, rfl⟩ := PropertyGraph.mem_keys.mp (target_mem_keys hmethod)
    obtain ⟨hmember, -, hmkind⟩ := htarget hm hmethod
    obtain ⟨hmem, hsource, hkind⟩ := htarget hn (hkey ▸ hrelated)
    exact mentions_part hmember hmem hkind (hsource.symm.trans hmkind)

/-- Where every node is owned, none is left out. -/
theorem project_mentions_owned (h : g.Integrity) (htyped : ∀ r ∈ g.relationships, r.isWellTyped)
    (howned : g.IsOwned) (hn : n ∈ g.nodes) (name : Option String) :
    ∃ c ∈ (project g name .all).classes, g.Owns c.name n.key ∧ c.Mentions n := by
  obtain ⟨c, hc, howns⟩ := exists_owner howned htyped hn
  obtain ⟨m, hm, hkey⟩ := PropertyGraph.mem_keys.mp hc
  refine ⟨classStructure g (.ofClass c), ?_, howns, mentions_of_owns h htyped hn howns⟩
  exact List.mem_map.mpr ⟨m, mem_nodesOfKind.mpr ⟨hm, by rw [hkey]; rfl⟩, by rw [hkey]⟩

end Projection

namespace Fact

/-- The method that a fact is about without saying how visible it is. -/
def presumed? : Fact → Option (String × String)
  | methodDeclared owner name none => some (owner, name)
  | methodCall owner caller _ => some (owner, caller)
  | controlFlow owner method _ _ => some (owner, method)
  | _ => none

/-- Some fact says that there is the method, and how visible it is. -/
def Declared (fs : List Fact) (method : String × String) : Prop :=
  ∃ visibility, methodDeclared method.1 method.2 (some visibility) ∈ fs

/-- Each method is declared before a fact takes it for granted. -/
inductive DeclaresFirst : List Fact → Prop
  | nil : DeclaresFirst []
  | snoc {fs : List Fact} {f : Fact} : DeclaresFirst fs → (∀ m ∈ f.presumed?, Declared fs m) →
    DeclaresFirst (fs ++ [f])

variable {k : MethodKeying} {f : Fact} {fs fs' : List Fact} {m : String × String} {key : NodeKey}

theorem Declared.mono (h : Declared fs m) (hsubset : fs ⊆ fs') : Declared fs' m := by
  obtain ⟨visibility, hdeclared⟩ := h
  exact ⟨visibility, hsubset hdeclared⟩

namespace DeclaresFirst

theorem of_beginning (h : DeclaresFirst fs) (hcut : fs' <+: fs) : DeclaresFirst fs' := by
  induction h with
  | nil =>
    rw [List.prefix_nil.mp hcut]
    exact nil
  | snoc h hf ih =>
    rcases List.prefix_concat_iff.mp hcut with rfl | hcut
    · exact h.snoc hf
    · exact ih hcut

theorem append (h : DeclaresFirst fs) (h' : DeclaresFirst fs') : DeclaresFirst (fs ++ fs') := by
  induction h' with
  | nil => simpa using h
  | snoc _ hf ih =>
    rw [← List.append_assoc]
    exact ih.snoc fun m hm => (hf m hm).mono (List.subset_append_right _ _)

/-- Facts that take nothing for granted but what was declared before all of them. -/
theorem append_of_declared (h : DeclaresFirst fs)
    (hfs' : ∀ f ∈ fs', ∀ m ∈ f.presumed?, Declared fs m) : DeclaresFirst (fs ++ fs') := by
  induction fs' generalizing fs with
  | nil => simpa using h
  | cons f fs' ih =>
    obtain ⟨hf, hrest⟩ := List.forall_mem_cons.mp hfs'
    rw [List.append_cons]
    exact ih (h.snoc hf) fun f' hf' m hm => (hrest f' hf' m hm).mono (List.subset_append_left _ _)

theorem of_presumed?_eq_none (h : ∀ f ∈ fs, f.presumed? = none) : DeclaresFirst fs := by
  rw [← List.nil_append fs]
  refine nil.append_of_declared fun f hf m hm => ?_
  rw [h f hf] at hm
  cases hm

theorem flatMap {α : Type} {as : List α} {facts : α → List Fact}
    (h : ∀ a ∈ as, DeclaresFirst (facts a)) : DeclaresFirst (as.flatMap facts) := by
  induction as with
  | nil => exact nil
  | cons a as ih =>
    obtain ⟨ha, has⟩ := List.forall_mem_cons.mp h
    exact ha.append (ih has)

/-- Facts that are left out do no harm if they declare no methods. -/
theorem filter {p : Fact → Bool} (h : DeclaresFirst fs)
    (hp : ∀ owner name visibility, methodDeclared owner name visibility ∈ fs →
      p (methodDeclared owner name visibility)) : DeclaresFirst (fs.filter p) := by
  induction h with
  | nil => exact nil
  | snoc _ hf ih =>
    have hp' := fun owner name visibility hmem => hp owner name visibility (List.mem_append_left _ hmem)
    rw [List.filter_append]
    refine (ih hp').append_of_declared fun f' hf' m hm => ?_
    obtain rfl := List.mem_singleton.mp (List.mem_of_mem_filter hf')
    obtain ⟨visibility, hdeclared⟩ := hf m hm
    exact ⟨visibility, List.mem_filter.mpr ⟨hdeclared, hp' _ _ _ hdeclared⟩⟩

theorem declared (h : DeclaresFirst fs) (hf : f ∈ fs) (hm : m ∈ f.presumed?) : Declared fs m := by
  induction h with
  | nil => cases hf
  | snoc _ hlast ih =>
    rcases List.mem_append.mp hf with hf | hf
    · exact (ih hf).mono (List.subset_append_left _ _)
    · obtain rfl := List.mem_singleton.mp hf
      exact (hlast m hm).mono (List.subset_append_left _ _)

end DeclaresFirst

private theorem presumed?_of_visibilityOf? (h : f.visibilityOf? k key = some none) :
    ∃ m ∈ f.presumed?, k.key m.1 m.2 = key := by
  cases f with
  | methodDeclared owner name visibility =>
    cases visibility <;> simp_all [visibilityOf?, presumed?]
  | _ => simp_all [visibilityOf?, presumed?]

/-- The first fact that mentions a method says how visible it is. -/
theorem DeclaresFirst.findSome?_visibilityOf? (h : DeclaresFirst fs) (k : MethodKeying)
    (key : NodeKey) : fs.findSome? (·.visibilityOf? k key) ≠ some none := by
  induction h with
  | nil => exact nofun
  | @snoc fs f _ hf ih =>
    rw [List.findSome?_append]
    cases hbefore : fs.findSome? (·.visibilityOf? k key) with
    | some visibility => simpa [hbefore] using ih
    | none =>
      intro hlast
      rw [Option.none_or, List.findSome?_singleton] at hlast
      obtain ⟨m, hm, hkey⟩ := presumed?_of_visibilityOf? hlast
      obtain ⟨visibility, hdeclared⟩ := hf m hm
      have hnone := List.findSome?_eq_none_iff.mp hbefore _ hdeclared
      simp [visibilityOf?, hkey] at hnone

private theorem visibilityOf?_isSome (hkey : key.kind = .methodNode) (h : key ∈ f.keys k) :
    (f.visibilityOf? k key).isSome := by
  obtain ⟨n, hn, rfl⟩ := List.mem_map.mp h
  rw [visibilityOf?_eq hkey, Option.isSome_map, node?, List.find?_isSome]
  exact ⟨n, hn, decide_eq_true rfl⟩

/-- A fact relates a node to the one that it belongs to, or takes it for granted. -/
theorem related_or_presumed {r : RelationKind} (h : key ∈ f.keys k)
    (hr : key.kind.belonging? = some r) :
    (∃ source, f.relationship? k = some ⟨source, r, key⟩) ∨
      ∃ m ∈ f.presumed?, key = k.key m.1 m.2 ∧ r = .hasMethod := by
  obtain ⟨n, hn, rfl⟩ := List.mem_map.mp h
  rcases mem_nodes.mp hn with rfl | ⟨o, ho, rfl⟩
  · have hmethod {owner name : String} (hr : (k.key owner name).kind.belonging? = some r) :
        r = .hasMethod := by
      rw [kind_key] at hr
      exact (Option.some.inj hr).symm
    refine .inr ?_
    cases f with
    | methodCall owner caller callee => exact ⟨(owner, caller), rfl, rfl, hmethod hr⟩
    | controlFlow owner method kind condition => exact ⟨(owner, method), rfl, rfl, hmethod hr⟩
    | _ => cases hr
  · have hrelated : f.relationship? k = some ⟨(f.subject k).key, o.1, o.2.key⟩ := by
      rw [relationship?, ho]
      rfl
    have hkind : o.2.key.kind = o.1.targetKind :=
      ((Relationship.isWellTyped_iff _).mp (isWellTyped_of_relationship? hrelated)).2
    obtain rfl : r = o.1 := RelationKind.eq_of_belonging?_targetKind (hkind ▸ hr)
    exact .inl ⟨_, hrelated⟩

end Fact

namespace Projection

variable {k : MethodKeying} {fs : List Fact} {g : PropertyGraph} {n : Node}

theorem MadeOf.isWellTyped (h : MadeOf k fs g) : ∀ r ∈ g.relationships, r.isWellTyped := by
  intro r hr
  obtain ⟨f, -, hrelated⟩ := (h.mem_relationships r).mp hr
  exact Fact.isWellTyped_of_relationship? hrelated

theorem MadeOf.isOwned (h : MadeOf k fs g) (hfirst : Fact.DeclaresFirst fs) : g.IsOwned := by
  intro n hn r hr
  obtain ⟨f, hf, hkey⟩ := (h.mem_keys n.key).mp (PropertyGraph.mem_keys.mpr ⟨n, hn, rfl⟩)
  rcases Fact.related_or_presumed hkey hr with ⟨source, hrelated⟩ | ⟨m, hm, hmethod, rfl⟩
  · exact ⟨source, (h.mem_relationships _).mpr ⟨f, hf, hrelated⟩⟩
  · -- The fact that declares the method relates it to its class.
    obtain ⟨visibility, hdeclared⟩ := hfirst.declared hf hm
    exact ⟨.ofClass m.1, (h.mem_relationships _).mpr
      ⟨_, hdeclared, Fact.relationship?_hasMethod.mpr ⟨m.2, some visibility, rfl, hmethod⟩⟩⟩

theorem MadeOf.visibility_isSome (h : MadeOf k fs g) (hfirst : Fact.DeclaresFirst fs)
    (hn : n ∈ g.nodes) (hkind : n.key.kind = .methodNode) :
    (n.properties.get? "visibility").isSome := by
  obtain ⟨f, hf, hkey⟩ := (h.mem_keys n.key).mp (PropertyGraph.mem_keys.mpr ⟨n, hn, rfl⟩)
  have hmentioned : (fs.findSome? (·.visibilityOf? k n.key)).isSome :=
    List.findSome?_isSome_iff.mpr ⟨f, hf, Fact.visibilityOf?_isSome hkind hkey⟩
  have hgiven := hfirst.findSome?_visibilityOf? k n.key
  rw [h.visibility_eq hn hkind]
  cases hfound : fs.findSome? (·.visibilityOf? k n.key) with
  | none => simp [hfound] at hmentioned
  | some visibility =>
    cases visibility with
    | none => exact (hgiven hfound).elim
    | some visibility => rfl

theorem MadeOf.shown_visibility_isSome (h : MadeOf k fs g) (hfirst : Fact.DeclaresFirst fs)
    {name : Option String} {c : ClassStructure} (hc : c ∈ (project g name .all).classes)
    {m : MethodStructure} (hm : m ∈ c.methods) : m.visibility.isSome := by
  obtain ⟨_, -, rfl⟩ := List.mem_map.mp hc
  obtain ⟨n, hn, rfl⟩ := List.mem_map.mp (List.mem_mergeSort.mp hm)
  obtain ⟨hstored, hrelated⟩ := h.integrity.mem_neighbors_outgoing.mp hn
  exact h.visibility_isSome hfirst hstored
    ((Relationship.isWellTyped_iff _).mp (h.isWellTyped _ hrelated)).2

end Projection

end StructureGraph
