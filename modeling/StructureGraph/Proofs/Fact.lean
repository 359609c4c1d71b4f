import StructureGraph.Ingestion
import StructureGraph.Proofs.Graph.Key
import StructureGraph.Proofs.Graph.Transaction

namespace StructureGraph

open StructureGraph.Graph

namespace Fact

/-- The node that a fact is about. -/
def subject (k : MethodKeying) : Fact → Node
  | classDeclared name => classNode name
  | methodCall owner method _ | controlFlow owner method _ _ => methodNode k owner method none
  | methodDeclared owner _ _ | inherits owner _ | implements owner _ | fieldDeclared owner _ _ _
  | imports owner _ => classNode owner

/-- What a fact says of its node: how it is related to another one. -/
def object? (k : MethodKeying) : Fact → Option (RelationKind × Node)
  | classDeclared _ => none
  | methodDeclared owner name visibility => some (.hasMethod, methodNode k owner name visibility)
  | methodCall _ _ callee => some (.calls, node (.ofCall callee) [("name", callee)])
  | controlFlow _ _ kind condition => some (.contains, controlFlowNode kind condition)
  | inherits _ parent => some (.inherits, classNode parent)
  | implements _ interface =>
    some (.implements, node (.ofInterface interface) [("name", interface)])
  | fieldDeclared _ name type visibility => some (.hasField, fieldNode name type visibility)
  | imports _ imported => some (.imports, node (.ofImport imported) [("name", imported)])

def nodes (k : MethodKeying) (f : Fact) : List Node :=
  f.subject k :: ((f.object? k).map Prod.snd).toList

def keys (k : MethodKeying) (f : Fact) : List NodeKey := (f.nodes k).map Node.key

/-- The node with this key, as the fact has it. -/
def node? (k : MethodKeying) (key : NodeKey) (f : Fact) : Option Node :=
  (f.nodes k).find? (·.key = key)

def relationship? (k : MethodKeying) (f : Fact) : Option Relationship :=
  (f.object? k).map fun o => ⟨(f.subject k).key, o.1, o.2.key⟩

/-- The texts that a fact is made of. -/
def texts : Fact → List String
  | classDeclared name => [name]
  | methodDeclared owner name visibility => owner :: name :: visibility.toList
  | methodCall owner caller callee => [owner, caller, callee]
  | controlFlow owner method kind condition => [owner, method, kind, condition]
  | inherits owner other | implements owner other | imports owner other => [owner, other]
  | fieldDeclared owner name type visibility => [owner, name, type, visibility]

/-- The names of the classes that a fact brings about. -/
def classes : Fact → List String
  | classDeclared name => [name]
  | inherits owner parent => [owner, parent]
  | methodDeclared owner _ _ | implements owner _ | fieldDeclared owner _ _ _ | imports owner _ =>
    [owner]
  | methodCall .. | controlFlow .. => []

/-- The name of the method that a fact is about. -/
def method? : Fact → Option String
  | methodDeclared _ name _ => some name
  | methodCall _ caller _ => some caller
  | controlFlow _ method _ _ => some method
  | _ => none

variable {k : MethodKeying} {f : Fact} {n : Node} {r : Relationship} {c : String}

theorem transaction_eq (k : MethodKeying) (f : Fact) :
    f.transaction k =
      (f.nodes k).map .node ++ (f.relationship? k).toList.map .relationship := by
  cases f <;> rfl

theorem isWellTyped_of_relationship? (h : f.relationship? k = some r) : r.isWellTyped := by
  cases k <;> cases f <;> cases h <;> rfl

theorem ends_of_relationship? (h : f.relationship? k = some r) :
    r.source ∈ f.keys k ∧ r.target ∈ f.keys k := by
  obtain ⟨o, ho, rfl⟩ := Option.map_eq_some_iff.mp h
  simp [keys, nodes, ho]

theorem mergedKeys_transaction (k : MethodKeying) (f : Fact) :
    mergedKeys (f.transaction k) = f.keys k := by
  have hnodes (ns : List Node) : mergedKeys (ns.map .node) = ns.map Node.key := by
    simp [mergedKeys, List.filterMap_map, Function.comp_def, Write.mergedKey?]
  have hrelationships (rs : List Relationship) : mergedKeys (rs.map .relationship) = [] := by
    simp [mergedKeys, Write.mergedKey?]
  rw [transaction_eq, mergedKeys_append, hnodes, hrelationships, List.append_nil]
  rfl

theorem firstMerged?_transaction (k : MethodKeying) (key : NodeKey) (f : Fact) :
    firstMerged? key (f.transaction k) = f.node? k key := by
  have hnodes (ns : List Node) : firstMerged? key (ns.map .node) = ns.find? (·.key = key) := by
    induction ns with
    | nil => rfl
    | cons n ns ih =>
      by_cases hn : n.key = key
      · simp [firstMerged?, Write.merging?, hn]
      · simpa [firstMerged?, Write.merging?, hn] using ih
  have hrelationships (rs : List Relationship) : firstMerged? key (rs.map .relationship) = none := by
    simp [firstMerged?, Write.merging?]
  rw [transaction_eq, firstMerged?_append, hnodes, hrelationships, Option.or_none]
  rfl

theorem relationship_mem_transaction :
    .relationship r ∈ f.transaction k ↔ f.relationship? k = some r := by
  simp [transaction_eq]

theorem mem_nodes : n ∈ f.nodes k ↔ n = f.subject k ∨ ∃ o, f.object? k = some o ∧ n = o.2 := by
  cases ho : f.object? k <;> simp [nodes, ho]

/-- A node that a fact mentions is of one of these forms. -/
inductive Form (k : MethodKeying) (f : Fact) : Node → Prop
  | ofClass (c : String) : Form k f (classNode c)
  | named (key : NodeKey) : key.kind ∈ [.callNode, .interfaceNode, .importNode] →
    Form k f (node key [("name", key.text)])
  | ofMethod {m : String} (owner : String) (visibility : Option String) : f.method? = some m →
    Form k f (methodNode k owner m visibility)
  | ofField {owner name type visibility : String} : f = .fieldDeclared owner name type visibility →
    Form k f (fieldNode name type visibility)
  | ofControlFlow {owner method kind condition : String} :
    f = .controlFlow owner method kind condition → Form k f (controlFlowNode kind condition)

theorem form_of_mem_nodes (hn : n ∈ f.nodes k) : Form k f n := by
  rcases mem_nodes.mp hn with rfl | ⟨o, ho, rfl⟩
  · cases f with
    | methodCall owner caller callee => exact .ofMethod owner none rfl
    | controlFlow owner method kind condition => exact .ofMethod owner none rfl
    | _ => exact .ofClass _
  · cases f with
    | classDeclared name => cases ho
    | methodDeclared owner name visibility =>
      cases ho
      exact .ofMethod owner visibility rfl
    | methodCall owner caller callee =>
      cases ho
      exact .named (.ofCall callee) (by simp [NodeKey.ofCall])
    | controlFlow owner method kind condition =>
      cases ho
      exact .ofControlFlow rfl
    | inherits owner parent =>
      cases ho
      exact .ofClass parent
    | implements owner interface =>
      cases ho
      exact .named (.ofInterface interface) (by simp [NodeKey.ofInterface])
    | fieldDeclared owner name type visibility =>
      cases ho
      exact .ofField rfl
    | imports owner imported =>
      cases ho
      exact .named (.ofImport imported) (by simp [NodeKey.ofImport])

@[simp] theorem kind_key (k : MethodKeying) (owner m : String) :
    (k.key owner m).kind = .methodNode := by
  cases k <;> rfl

theorem Form.name_eq (h : Form k f n)
    (hkind : n.key.kind ∈ [.classNode, .callNode, .interfaceNode, .importNode]) :
    n.name = n.key.text := by
  cases h with
  | ofClass c => rfl
  | named => simp [Node.name, node, Table.ofList, Table.get?_insert]
  | ofMethod => simp [methodNode, node] at hkind
  | ofField => simp [fieldNode, node, NodeKey.ofField] at hkind
  | ofControlFlow => simp [controlFlowNode, node, NodeKey.ofControlFlow] at hkind

theorem Form.method (h : Form k f n) (hkind : n.key.kind = .methodNode) :
    ∃ owner m visibility, n = methodNode k owner m visibility ∧ f.method? = some m := by
  cases h with
  | ofMethod owner visibility hm => exact ⟨owner, _, visibility, rfl, hm⟩
  | named key hnamed => simp_all [node]
  | _ => cases hkind

theorem Form.field (h : Form k f n) (hkind : n.key.kind = .fieldNode) :
    ∃ owner name type visibility, f = .fieldDeclared owner name type visibility ∧
      n = fieldNode name type visibility := by
  cases h with
  | ofField hf => exact ⟨_, _, _, _, hf, rfl⟩
  | named key hnamed => simp_all [node]
  | ofMethod => simp [methodNode, node] at hkind
  | _ => cases hkind

theorem Form.controlFlow (h : Form k f n) (hkind : n.key.kind = .controlFlowNode) :
    ∃ owner method kind condition, f = .controlFlow owner method kind condition ∧
      n = controlFlowNode kind condition := by
  cases h with
  | ofControlFlow hf => exact ⟨_, _, _, _, hf, rfl⟩
  | named key hnamed => simp_all [node]
  | ofMethod => simp [methodNode, node] at hkind
  | _ => cases hkind

/-- No text has the separator of keys in it, and where names of methods follow those of classes no
name of a method has a dot. -/
structure IsPlain (k : MethodKeying) (f : Fact) : Prop where
  texts : ∀ s ∈ f.texts, separator ∉ s.toList
  method : k = .classQualified → ∀ m ∈ f.method?, '.' ∉ m.toList

theorem eq_of_key_eq {owner owner' m m' : String} (h : k.key owner m = k.key owner' m')
    (hm : k = .classQualified → '.' ∉ m.toList) (hm' : k = .classQualified → '.' ∉ m'.toList) :
    m = m' := by
  cases k with
  | bareName => simpa [MethodKeying.key, NodeKey.ofMethod] using h
  | classQualified =>
    have htext : owner ++ String.singleton '.' ++ m = owner' ++ String.singleton '.' ++ m' := by
      simpa [MethodKeying.key, NodeKey.ofMethod] using h
    exact (Text.join_inj_right (hm rfl) (hm' rfl) htext).2

/-- The visibility that a fact gives to the method with this key, if it mentions the method. -/
def visibilityOf? (k : MethodKeying) (key : NodeKey) : Fact → Option (Option String)
  | methodDeclared owner name visibility => if k.key owner name = key then some visibility else none
  | methodCall owner method _ | controlFlow owner method _ _ =>
    if k.key owner method = key then some none else none
  | _ => none

@[simp] theorem key_methodNode (k : MethodKeying) (owner name : String)
    (visibility : Option String) : (methodNode k owner name visibility).key = k.key owner name :=
  rfl

private theorem get?_visibility_methodNode (k : MethodKeying) (owner name : String)
    (visibility : Option String) :
    (methodNode k owner name visibility).properties.get? "visibility" = visibility := by
  cases visibility <;> simp [methodNode, node, Table.ofList, Table.get?_insert]

theorem visibilityOf?_eq {key : NodeKey} (hkey : key.kind = .methodNode) (f : Fact) :
    f.visibilityOf? k key = (f.node? k key).map (·.properties.get? "visibility") := by
  have hother (t : NodeKey) (ht : t.kind ≠ .methodNode) : t ≠ key := fun heq => ht (heq ▸ hkey)
  cases f with
  | methodDeclared owner name visibility =>
    have howner := hother (classNode owner).key (by simp [classNode, node, NodeKey.ofClass])
    by_cases h : k.key owner name = key <;>
      simp [visibilityOf?, node?, nodes, subject, object?, howner, h, get?_visibility_methodNode]
  | methodCall owner method callee =>
    have hcallee := hother (.ofCall callee) (by simp [NodeKey.ofCall])
    by_cases h : k.key owner method = key <;>
      simp [visibilityOf?, node?, nodes, subject, object?, node, hcallee, h,
        get?_visibility_methodNode]
  | controlFlow owner method kind condition =>
    have hflow := hother (.ofControlFlow kind condition) (by simp [NodeKey.ofControlFlow])
    by_cases h : k.key owner method = key <;>
      simp [visibilityOf?, node?, nodes, subject, object?, controlFlowNode, node, hflow, h,
        get?_visibility_methodNode]
  | _ =>
    simp [visibilityOf?, node?, nodes, subject, object?, classNode, fieldNode, node, hother,
      NodeKey.ofClass, NodeKey.ofField, NodeKey.ofInterface, NodeKey.ofImport]

theorem mem_classes_iff (k : MethodKeying) : c ∈ f.classes ↔ .ofClass c ∈ f.keys k := by
  cases k <;> cases f <;>
    simp [classes, keys, nodes, subject, object?, classNode, methodNode, node, fieldNode,
      controlFlowNode, NodeKey.ofClass, NodeKey.ofMethod, NodeKey.ofCall, NodeKey.ofField,
      NodeKey.ofControlFlow, NodeKey.ofInterface, NodeKey.ofImport, MethodKeying.key]

section Relationships

variable {key t : NodeKey} {x : String}

theorem relationship?_inherits :
    f.relationship? k = some ⟨.ofClass c, .inherits, .ofClass x⟩ ↔ f = .inherits c x := by
  cases f <;> simp [relationship?, object?, subject, classNode, node, NodeKey.ofClass]

theorem relationship?_implements :
    f.relationship? k = some ⟨.ofClass c, .implements, .ofInterface x⟩ ↔ f = .implements c x := by
  cases f <;> simp [relationship?, object?, subject, classNode, node, NodeKey.ofClass,
    NodeKey.ofInterface]

theorem relationship?_imports :
    f.relationship? k = some ⟨.ofClass c, .imports, .ofImport x⟩ ↔ f = .imports c x := by
  cases f <;> simp [relationship?, object?, subject, classNode, node, NodeKey.ofClass,
    NodeKey.ofImport]

theorem relationship?_calls : f.relationship? k = some ⟨key, .calls, .ofCall x⟩ ↔
    ∃ owner caller, f = .methodCall owner caller x ∧ k.key owner caller = key := by
  cases f with
  | methodCall owner caller callee =>
    simp only [relationship?, object?, subject, Option.map_some, Option.some.injEq,
      Relationship.mk.injEq, key_methodNode, node, NodeKey.ofCall, NodeKey.mk.injEq, methodCall.injEq]
    grind
  | _ => simp [relationship?, object?, subject]

theorem relationship?_contains : f.relationship? k = some ⟨key, .contains, t⟩ ↔
    ∃ owner method kind condition, f = .controlFlow owner method kind condition ∧
      k.key owner method = key ∧ t = .ofControlFlow kind condition := by
  cases f with
  | controlFlow owner method kind condition =>
    simp only [relationship?, object?, subject, Option.map_some, Option.some.injEq,
      Relationship.mk.injEq, key_methodNode, controlFlowNode, node, controlFlow.injEq]
    grind
  | _ => simp [relationship?, object?, subject]

theorem relationship?_hasField : f.relationship? k = some ⟨.ofClass c, .hasField, t⟩ ↔
    ∃ name type visibility, f = .fieldDeclared c name type visibility ∧
      t = .ofField name type visibility := by
  cases f with
  | fieldDeclared owner name type visibility =>
    simp only [relationship?, object?, subject, Option.map_some, Option.some.injEq,
      Relationship.mk.injEq, classNode, fieldNode, node, NodeKey.ofClass, NodeKey.mk.injEq,
      fieldDeclared.injEq]
    grind
  | _ => simp [relationship?, object?, subject]

theorem relationship?_hasMethod : f.relationship? k = some ⟨.ofClass c, .hasMethod, t⟩ ↔
    ∃ name visibility, f = .methodDeclared c name visibility ∧ t = k.key c name := by
  cases f with
  | methodDeclared owner name visibility =>
    simp only [relationship?, object?, subject, Option.map_some, Option.some.injEq,
      Relationship.mk.injEq, classNode, key_methodNode, node, NodeKey.ofClass, NodeKey.mk.injEq,
      methodDeclared.injEq]
    grind
  | _ => simp [relationship?, object?, subject]

end Relationships

end Fact

end StructureGraph
