import StructureGraph.Proofs.Java.Facts
import StructureGraph.Proofs.Projection.Ownership

namespace StructureGraph.Java

open StructureGraph.Graph
open StructureGraph.Fact (DeclaresFirst)

/-- The names of types and methods can be keys of nodes. -/
def CompilationUnit.HasValidNames (u : CompilationUnit) : Prop :=
  ∀ d ∈ u.types, (NodeKey.ofClass d.name).isValid ∧
    ∀ m ∈ d.methods, (NodeKey.ofMethod m.name).isValid

namespace FactSelection

variable {s : FactSelection} {significant : Option (List String)} {k : MethodKeying}
  {u : CompilationUnit} {us : List CompilationUnit} {d : TypeDeclaration}

private theorem declaresFirst_methodFacts (m : Method) : DeclaresFirst (s.methodFacts d m) := by
  rw [methodFacts, ← List.singleton_append]
  refine .append_of_declared (.of_presumed?_eq_none (by simp [Fact.presumed?])) fun f hf m' hm' => ?_
  obtain rfl : m' = (d.name, m.name) := by
    simp only [callFacts, List.mem_append, List.mem_ite_nil_right, List.mem_map] at hf
    rcases hf with ⟨-, c, -, rfl⟩ | ⟨-, b, -, rfl⟩ <;> exact (Option.some.inj hm').symm
  exact ⟨m.visibility.text, List.mem_singleton_self _⟩

/-- What is stated of a type before its methods takes no method for granted. -/
theorem declaresFirst_typeFacts : DeclaresFirst (s.typeFacts significant u d) := by
  rw [typeFacts]
  refine .append (.of_presumed?_eq_none fun f hf => ?_) ?_
  · simp only [List.mem_append, List.mem_singleton, List.mem_ite_nil_right, List.mem_map] at hf
    rcases hf with (((rfl | ⟨-, _, -, rfl⟩) | ⟨-, _, -, rfl⟩) | ⟨-, _, -, rfl⟩) | ⟨-, _, -, rfl⟩ <;>
      rfl
  · split
    · exact .flatMap fun m _ => declaresFirst_methodFacts m
    · exact .nil

private theorem declaresFirst_facts (us : List CompilationUnit) :
    DeclaresFirst (us.flatMap (s.facts significant)) :=
  .flatMap fun _ _ => .flatMap fun _ _ => declaresFirst_typeFacts

private theorem mem_of_methodDeclared {owner name : String} {visibility : Option String}
    (h : .methodDeclared owner name visibility ∈ s.facts significant u) :
    ∃ d ∈ u.types, ∃ m ∈ d.methods, d.name = owner ∧ m.name = name := by
  obtain ⟨d, hd, hf⟩ := List.mem_flatMap.mp h
  simp only [typeFacts, methodFacts, callFacts, List.mem_append, List.not_mem_nil,
    List.mem_ite_nil_right, List.mem_map, List.mem_flatMap, List.mem_cons, reduceCtorEq, and_false,
    exists_false, or_false, false_or, Fact.methodDeclared.injEq] at hf
  obtain ⟨-, m, hm, rfl, rfl, -⟩ := hf
  exact ⟨d, hd, m, List.mem_of_mem_filter hm, rfl, rfl⟩

private theorem isAccepted_methodDeclared {owner name : String} (howner : (NodeKey.ofClass owner).isValid)
    (hname : (NodeKey.ofMethod name).isValid) (k : MethodKeying) (visibility : Option String) :
    (Fact.methodDeclared owner name visibility).isAccepted k := by
  have hmethod : (k.key owner name).isValid := by
    cases k with
    | bareName => exact hname
    | classQualified =>
      rw [MethodKeying.key, String.append_assoc]
      exact NodeKey.isValid_append howner _
  rw [Fact.isAccepted, List.all_eq_true]
  simp only [Fact.keys, Fact.nodes, Fact.subject, Fact.object?]
  simp [hmethod]
  exact howner

private theorem isAccepted_of_methodDeclared (hnames : ∀ u ∈ us, u.HasValidNames) (k : MethodKeying)
    {owner name : String} {visibility : Option String}
    (h : .methodDeclared owner name visibility ∈ us.flatMap (s.facts significant)) :
    (Fact.methodDeclared owner name visibility).isAccepted k := by
  obtain ⟨u, hu, hf⟩ := List.mem_flatMap.mp h
  obtain ⟨d, hd, m, hm, rfl, rfl⟩ := mem_of_methodDeclared hf
  obtain ⟨hclass, hmethods⟩ := hnames u hu d hd
  exact isAccepted_methodDeclared hclass (hmethods m hm) k visibility

private theorem declaresFirst_accepted (hnames : ∀ u ∈ us, u.HasValidNames) (k : MethodKeying)
    {fs : List Fact} (hfs : fs <+: us.flatMap (s.facts significant)) :
    DeclaresFirst (fs.filter (·.isAccepted k)) :=
  ((declaresFirst_facts us).of_beginning hfs).filter fun _ _ _ h =>
    isAccepted_of_methodDeclared hnames k (hfs.mem h)

end FactSelection

/-- Wherever the facts of units are cut off, what is ingested of them is all there to be seen. The nodes
are those that the accepted facts mention, each but those of classes is related to the one it belongs
to, each method has a visibility, and the projection mentions every node under a class that owns it. -/
theorem project_mentions_ingested (s : FactSelection) (significant : Option (List String))
    (k : MethodKeying) {us : List CompilationUnit} (hnames : ∀ u ∈ us, u.HasValidNames)
    {fs : List Fact} (hfs : fs <+: us.flatMap (s.facts significant)) (name : Option String) :
    ∃ g report, Store.memory.ingestAll k .bestEffort .empty fs = (g, .ok report) ∧
      (∀ key, key ∈ g.keys ↔ ∃ f ∈ fs, f.isAccepted k ∧ key ∈ f.keys k) ∧
      g.IsOwned ∧
      (∀ n ∈ g.nodes, n.key.kind = .methodNode → (n.properties.get? "visibility").isSome) ∧
      (∀ n ∈ g.nodes, ∃ c ∈ (Projection.project g name .all).classes,
        g.Owns c.name n.key ∧ c.Mentions n) ∧
      ∀ c ∈ (Projection.project g name .all).classes, ∀ m ∈ c.methods, m.visibility.isSome := by
  obtain ⟨g, report, hrun, hingested⟩ := ingestAll_effect PropertyGraph.integrity_empty k fs
  have hmade := Projection.madeOf_of_ingested hingested
  have hfirst := FactSelection.declaresFirst_accepted hnames k hfs
  have howned := hmade.isOwned hfirst
  have hkeys : ∀ key, key ∈ g.keys ↔ ∃ f ∈ fs, f.isAccepted k ∧ key ∈ f.keys k := by
    simpa [and_assoc] using hmade.mem_keys
  exact ⟨g, report, hrun, hkeys, howned, fun n hn => hmade.visibility_isSome hfirst hn,
    fun n hn => Projection.project_mentions_owned hmade.integrity hmade.isWellTyped howned hn name,
    fun c hc m hm => hmade.shown_visibility_isSome hfirst hc hm⟩

/-- Facts that are cut off in the body of a method. -/
theorem project_mentions_ingested_cut_off :
    let run : Method := ⟨"run", .publicAccess, false, [],
      ⟨[⟨"print", .implicit, [], 1⟩, ⟨"exit", .implicit, [], 2⟩], [], []⟩⟩
    let d : TypeDeclaration :=
      ⟨"A", ["A"], .classType, none, ["p.I"], [], [run], [], .initializer .empty⟩
    let us : List CompilationUnit := [⟨some "p", [], [d]⟩]
    let fs : List Fact :=
      [.classDeclared "A", .implements "A" "I", .methodDeclared "A" "run" (some "public"),
       .methodCall "A" "run" "print"]
    (∀ u ∈ us, u.HasValidNames) ∧ fs <+: us.flatMap (FactSelection.facts {} none) ∧
      ∃ g report, Store.memory.ingestAll .classQualified .bestEffort .empty fs = (g, .ok report) ∧
        ∃ c ∈ (Projection.project g none .all).classes, ∃ m ∈ c.methods,
          "print" ∈ m.calls ∧ m.visibility.isSome := by
  intro run d us fs
  have hnames : ∀ u ∈ us, u.HasValidNames := by
    simp only [us, d, run, CompilationUnit.HasValidNames, List.forall_mem_singleton]
    decide +kernel
  have hfs : fs <+: us.flatMap (FactSelection.facts {} none) :=
    ⟨[.methodCall "A" "run" "exit"], by decide +kernel⟩
  obtain ⟨g, report, hrun, -, -, -, hmentions, hvisible⟩ :=
    project_mentions_ingested {} none .classQualified hnames hfs none
  have hcall : ∃ n ∈ g.nodes, n.key = .ofCall "print" ∧ n.name = "print" := by
    obtain rfl : (Store.memory.ingestAll .classQualified .bestEffort .empty fs).1 = g := by rw [hrun]
    decide +kernel
  obtain ⟨n, hn, hkey, hname⟩ := hcall
  obtain ⟨c, hc, -, hmentioned⟩ := hmentions n hn
  rw [ClassStructure.Mentions, hkey] at hmentioned
  obtain ⟨m, hm, hcalled⟩ := hmentioned
  exact ⟨hnames, hfs, g, report, hrun, c, hc, m, hm, hname ▸ hcalled, hvisible c hc m hm⟩

end StructureGraph.Java
