import Mathlib.Data.Set.Function
import StructureGraph.Proofs.Projection

namespace StructureGraph

open StructureGraph.Graph

namespace ControlFlowStructure

def parts (x : ControlFlowStructure) : List String := [x.kind, x.condition]

def key (x : ControlFlowStructure) : NodeKey := .ofControlFlow x.kind x.condition

end ControlFlowStructure

namespace FieldStructure

def parts (x : FieldStructure) : List String := [x.name, x.type, x.visibility]

def key (x : FieldStructure) : NodeKey := .ofField x.name x.type x.visibility

end FieldStructure

private theorem bijOn_range {α β : Type} {f : α → β} {s : Set α} (hinj : Set.InjOn f s)
    (hcover : ∀ a, ∃ b ∈ s, f b = f a) : Set.BijOn f s (Set.range f) := by
  refine ⟨fun a _ => Set.mem_range_self a, hinj, fun b hb => ?_⟩
  obtain ⟨a, rfl⟩ := hb
  exact hcover a

private theorem ControlFlowStructure.key_eq (x : ControlFlowStructure) :
    x.key = ⟨.controlFlowNode, x.kind ++ String.singleton separator ++ x.condition⟩ := by
  simp [key, NodeKey.ofControlFlow, joinParts]

private theorem FieldStructure.key_eq (x : FieldStructure) :
    x.key = ⟨.fieldNode, x.name ++ String.singleton separator ++ x.type ++
      String.singleton separator ++ x.visibility⟩ := by
  rw [key, NodeKey.ofField, NodeKey.mk.injEq, ← String.toList_inj]
  simp [joinParts]

private theorem MethodKeying.key_eq (x : String × String) :
    Function.uncurry classQualified.key x = ⟨.methodNode, x.1 ++ String.singleton '.' ++ x.2⟩ := by
  obtain ⟨owner, m⟩ := x
  rw [Function.uncurry, key, NodeKey.ofMethod]
  rfl

/-- Each key is that of one entry whose kind has no separator. -/
theorem ControlFlowStructure.bijOn_key :
    Set.BijOn key {x | separator ∉ x.kind.toList} (Set.range key) := by
  refine bijOn_range ?_ fun x => ?_
  · rintro ⟨kind, condition⟩ hx ⟨kind', condition'⟩ hy h
    rw [key_eq, key_eq, NodeKey.mk.injEq] at h
    obtain ⟨rfl, rfl⟩ := Text.join_inj_left hx hy h.2
    rfl
  · obtain ⟨kind, rest, hkind, hsplit⟩ := @Text.exists_first_separator separator x.kind
    refine ⟨⟨kind, rest ++ x.condition⟩, hkind, ?_⟩
    rw [key_eq, key_eq, hsplit, ← String.append_assoc]

/-- Each key is that of one field whose name and visibility have no separator. -/
theorem FieldStructure.bijOn_key :
    Set.BijOn key {x | separator ∉ x.name.toList ∧ separator ∉ x.visibility.toList}
      (Set.range key) := by
  refine bijOn_range ?_ fun x => ?_
  · rintro ⟨name, type, visibility⟩ hx ⟨name', type', visibility'⟩ hy h
    rw [key_eq, key_eq, NodeKey.mk.injEq] at h
    obtain ⟨hbefore, rfl⟩ := Text.join_inj_right hx.2 hy.2 h.2
    obtain ⟨rfl, rfl⟩ := Text.join_inj_left hx.1 hy.1 hbefore
    rfl
  · obtain ⟨name, before, hname, hfirst⟩ := @Text.exists_first_separator separator x.name
    obtain ⟨behind, visibility, hvisibility, hlast⟩ :=
      @Text.exists_last_separator separator x.visibility
    refine ⟨⟨name, before ++ x.type ++ behind, visibility⟩, ⟨hname, hvisibility⟩, ?_⟩
    rw [key_eq, key_eq, hfirst]
    simp only [String.append_assoc] at hlast ⊢
    rw [hlast]

/-- Each key of a method that is told by its class is that of one method without dots in its name. -/
theorem MethodKeying.bijOn_key :
    Set.BijOn (Function.uncurry classQualified.key) {x | '.' ∉ x.2.toList}
      (Set.range (Function.uncurry classQualified.key)) := by
  refine bijOn_range ?_ fun x => ?_
  · rintro ⟨owner, m⟩ hx ⟨owner', m'⟩ hy h
    rw [key_eq, key_eq, NodeKey.mk.injEq] at h
    obtain ⟨rfl, rfl⟩ := Text.join_inj_right hx hy h.2
    rfl
  · obtain ⟨behind, m, hm, hlast⟩ := @Text.exists_last_separator '.' x.2
    refine ⟨⟨x.1 ++ behind, m⟩, hm, ?_⟩
    rw [key_eq, key_eq]
    simp only [String.append_assoc] at hlast ⊢
    rw [hlast]

namespace Projection

/-- A view shows the same of every node with a key: of the one that is written, of one that has nothing
but its key, and of those that ingestion adds to a graph. -/
structure ReadsBack {α : Type} (view : Node → α) (written : Node) (x : α) : Prop where
  with_attributes : view written = x
  bare : view ⟨written.key, .empty⟩ = x
  ingested : ∀ g, Reachable g → ∀ (k : MethodKeying) (mode : IngestMode) (fs : List Fact),
    ∀ n ∈ (Store.memory.ingestAll k mode g fs).1.nodes, n ∉ g.nodes →
      n.key = written.key → view n = x

private theorem exists_form_of_mem_ingestAll {g : PropertyGraph} (hg : Reachable g) {k : MethodKeying}
    {mode : IngestMode} {fs : List Fact} {n : Node}
    (hn : n ∈ (Store.memory.ingestAll k mode g fs).1.nodes) (hnew : n ∉ g.nodes) :
    ∃ f, Fact.Form k f n := by
  obtain ⟨f, -, hf⟩ := (mem_nodes_of_ingestAll hg hn).resolve_left hnew
  exact ⟨f, Fact.form_of_mem_nodes hf⟩

private theorem readsBack_controlFlow {x : ControlFlowStructure}
    (hx : ∀ s ∈ x.parts, separator ∉ s.toList) :
    ReadsBack controlFlow (Fact.controlFlowNode x.kind x.condition) x where
  with_attributes := controlFlow_controlFlowNode x.kind x.condition
  bare := by
    have hparts : (NodeKey.ofControlFlow x.kind x.condition).parts = x.parts :=
      segments_joinParts (by simp) hx
    simp [controlFlow, shown, Fact.controlFlowNode, Fact.node, hparts, ControlFlowStructure.parts]
  ingested g hg k mode fs n hn hnew hkey := by
    obtain ⟨f, hform⟩ := exists_form_of_mem_ingestAll hg hn hnew
    exact controlFlow_of_form hform hkey hx

private theorem readsBack_field {x : FieldStructure} (hx : ∀ s ∈ x.parts, separator ∉ s.toList) :
    ReadsBack field (Fact.fieldNode x.name x.type x.visibility) x where
  with_attributes := field_fieldNode x.name x.type x.visibility
  bare := by
    have hparts : (NodeKey.ofField x.name x.type x.visibility).parts = x.parts :=
      segments_joinParts (by simp) hx
    simp [field, shown, Fact.fieldNode, Fact.node, hparts, FieldStructure.parts]
  ingested g hg k mode fs n hn hnew hkey := by
    obtain ⟨f, hform⟩ := exists_form_of_mem_ingestAll hg hn hnew
    exact field_of_form hform hkey hx

/-- Keys of several parts lose nothing. The texts that a key is made of are told by it as long as the
separator is in one of them at most, and in no larger set of texts are they told by it. Where it is in
none the key gives them back as its parts, and every node with the key shows them. -/
theorem composite_keys_lose_nothing :
    Set.BijOn ControlFlowStructure.key {x | separator ∉ x.kind.toList}
        (Set.range ControlFlowStructure.key) ∧
      Set.BijOn FieldStructure.key {x | separator ∉ x.name.toList ∧ separator ∉ x.visibility.toList}
        (Set.range FieldStructure.key) ∧
      Set.BijOn (Function.uncurry MethodKeying.classQualified.key) {x | '.' ∉ x.2.toList}
        (Set.range (Function.uncurry MethodKeying.classQualified.key)) ∧
      (∀ x : ControlFlowStructure,
        (x.key.parts = x.parts ↔ ∀ s ∈ x.parts, separator ∉ s.toList) ∧
        ((∀ s ∈ x.parts, separator ∉ s.toList) →
          ReadsBack controlFlow (Fact.controlFlowNode x.kind x.condition) x)) ∧
      ∀ x : FieldStructure,
        (x.key.parts = x.parts ↔ ∀ s ∈ x.parts, separator ∉ s.toList) ∧
        ((∀ s ∈ x.parts, separator ∉ s.toList) →
          ReadsBack field (Fact.fieldNode x.name x.type x.visibility) x) :=
  ⟨ControlFlowStructure.bijOn_key, FieldStructure.bijOn_key, MethodKeying.bijOn_key,
    fun _ => ⟨segments_joinParts_eq_iff (by simp), readsBack_controlFlow⟩,
    fun _ => ⟨segments_joinParts_eq_iff (by simp), readsBack_field⟩⟩

/-- Separators in the kind run together with that of the key. -/
example : ControlFlowStructure.key ⟨"if\x1fa", "b"⟩ = ControlFlowStructure.key ⟨"if", "a\x1fb"⟩ := by
  decide +kernel

theorem composite_keys_lose_nothing_int_field :
    let x : FieldStructure := ⟨"size", "int", "private"⟩
    let y : FieldStructure := ⟨"size", "in\x1ft", "private"⟩
    x.key ≠ y.key ∧ x.key.parts = ["size", "int", "private"] ∧ y.key.parts ≠ y.parts ∧
      ReadsBack field (Fact.fieldNode "size" "int" "private") x := by
  intro x y
  obtain ⟨-, htold, -, -, hread⟩ := composite_keys_lose_nothing
  have hx : ∀ s ∈ x.parts, separator ∉ s.toList := by decide +kernel
  refine ⟨fun h => ?_, (hread x).1.mpr hx, fun h => ?_, (hread x).2 hx⟩
  · exact absurd (htold.injOn (by decide +kernel) (by decide +kernel) h) (by decide +kernel)
  · exact absurd ((hread y).1.mp h) (by decide +kernel)

end Projection

end StructureGraph
