import StructureGraph.Java.Facts

namespace StructureGraph

/-- The fact is about a method and what stands in its body. -/
def Fact.isOfMethod : Fact → Bool
  | .methodDeclared .. | .methodCall .. | .controlFlow .. => true
  | _ => false

def Fact.declaresMethod : Fact → Bool
  | .methodDeclared .. => true
  | _ => false

namespace Java

/-- A method with the type and the unit that declare it. -/
structure DeclaredMethod where
  unit : CompilationUnit
  declaration : TypeDeclaration
  method : Method
  deriving DecidableEq, Repr

namespace DeclaredMethod

def signature (m : DeclaredMethod) : String := m.unit.methodSignature m.declaration m.method

/-- What is stated of the method if it is significant. -/
def facts (selection : FactSelection) (m : DeclaredMethod) : List Fact :=
  selection.methodFacts m.declaration m.method

/-- The fact that there is such a method. -/
def fact (m : DeclaredMethod) : Fact :=
  .methodDeclared m.declaration.name m.method.name (some m.method.visibility.text)

/-- All methods of a unit, type by type. -/
def ofUnit (u : CompilationUnit) : List DeclaredMethod :=
  u.types.flatMap fun d => d.methods.map fun m => ⟨u, d, m⟩

theorem mem_ofUnit {u : CompilationUnit} {m : DeclaredMethod} :
    m ∈ ofUnit u ↔ m.unit = u ∧ m.declaration ∈ u.types ∧ m.method ∈ m.declaration.methods := by
  rw [ofUnit, List.mem_flatMap]
  constructor
  · rintro ⟨d, hd, hm⟩
    obtain ⟨method, hmethod, rfl⟩ := List.mem_map.mp hm
    exact ⟨rfl, hd, hmethod⟩
  · rintro ⟨rfl, hd, hm⟩
    exact ⟨m.declaration, hd, List.mem_map.mpr ⟨m.method, hm, rfl⟩⟩

end DeclaredMethod

namespace FactSelection

variable {s : FactSelection} {names : List String} {significant : Option (List String)} {u : CompilationUnit}
  {d : TypeDeclaration} {p : Fact → Bool}

private theorem isOfMethod_of_mem_methodFacts {m : Method} {f : Fact} (h : f ∈ s.methodFacts d m) :
    f.isOfMethod := by
  simp only [methodFacts, callFacts, List.mem_cons, List.mem_append, List.mem_ite_nil_right,
    List.mem_map] at h
  rcases h with rfl | ⟨-, c, -, rfl⟩ | ⟨-, b, -, rfl⟩ <;> rfl

theorem filter_declaresMethod_methodFacts (m : Method) :
    (s.methodFacts d m).filter Fact.declaresMethod =
      [.methodDeclared d.name m.name (some m.visibility.text)] := by
  rw [methodFacts, List.filter_cons_of_pos rfl, List.filter_eq_nil_iff.mpr]
  intro f hf
  simp only [callFacts, List.mem_append, List.mem_ite_nil_right, List.mem_map] at hf
  rcases hf with ⟨-, c, -, rfl⟩ | ⟨-, b, -, rfl⟩ <;> exact Bool.false_ne_true

private theorem includes_significant (hpublic : s.onlyPublicMethods = false) (m : Method) :
    s.includes (some names) u d m = names.contains (u.methodSignature d m) := by
  simp [includes, hpublic]

/-- Facts about methods are those of the methods that count. -/
theorem filter_typeFacts (hp : ∀ f, p f → f.isOfMethod) (hmethods : s.methods = true) :
    (s.typeFacts significant u d).filter p =
      (d.methods.filter (s.includes significant u d)).flatMap fun m => (s.methodFacts d m).filter p := by
  rw [typeFacts, List.filter_append, if_pos hmethods, List.filter_flatMap, List.filter_eq_nil_iff.mpr,
    List.nil_append]
  intro f hf hpf
  have hmethod := hp f hpf
  simp only [List.mem_append, List.mem_singleton, List.mem_ite_nil_right, List.mem_map] at hf
  rcases hf with (((rfl | ⟨-, _, -, rfl⟩) | ⟨-, _, -, rfl⟩) | ⟨-, _, -, rfl⟩) | ⟨-, _, -, rfl⟩ <;>
    exact Bool.false_ne_true hmethod

private theorem filter_isOfMethod_typeFacts (hmethods : s.methods = true)
    (hpublic : s.onlyPublicMethods = false) :
    (s.typeFacts (some names) u d).filter Fact.isOfMethod =
      (d.methods.filter fun m => names.contains (u.methodSignature d m)).flatMap (s.methodFacts d) := by
  have hincludes : s.includes (some names) u d = fun m => names.contains (u.methodSignature d m) :=
    funext (includes_significant hpublic)
  have hown : (fun m => (s.methodFacts d m).filter Fact.isOfMethod) = s.methodFacts d :=
    funext fun m => List.filter_eq_self.mpr fun f hf => isOfMethod_of_mem_methodFacts hf
  rw [filter_typeFacts (fun _ h => h) hmethods, hincludes, hown]

theorem filter_isOfMethod_facts (hmethods : s.methods = true)
    (hpublic : s.onlyPublicMethods = false) :
    (s.facts (some names) u).filter Fact.isOfMethod =
      ((DeclaredMethod.ofUnit u).filter fun m => names.contains m.signature).flatMap
        (DeclaredMethod.facts s) := by
  rw [facts, List.filter_flatMap, DeclaredMethod.ofUnit, List.filter_flatMap, List.flatMap_assoc]
  congr 1
  funext d
  rw [filter_isOfMethod_typeFacts hmethods hpublic, List.filter_map, List.flatMap_map]
  rfl

/-- All that is stated of a significant method stands together. -/
theorem methodFacts_infix_facts (hmethods : s.methods = true)
    (hpublic : s.onlyPublicMethods = false) {m : DeclaredMethod} (hm : m ∈ DeclaredMethod.ofUnit u)
    (hsignificant : m.signature ∈ names) : m.facts s <:+: s.facts (some names) u := by
  obtain ⟨rfl, hd, hmethod⟩ := DeclaredMethod.mem_ofUnit.mp hm
  have hkept : m.method ∈ m.declaration.methods.filter
      (s.includes (some names) m.unit m.declaration) := by
    rw [List.mem_filter, includes_significant hpublic]
    exact ⟨hmethod, List.contains_iff_mem.mpr hsignificant⟩
  have htype : m.facts s <:+: s.typeFacts (some names) m.unit m.declaration := by
    rw [typeFacts, if_pos hmethods]
    refine List.IsInfix.trans ?_ (List.suffix_append _ _).isInfix
    rw [List.flatMap_def]
    exact List.infix_of_mem_flatten (List.mem_map_of_mem hkept)
  refine htype.trans ?_
  rw [facts, List.flatMap_def]
  exact List.infix_of_mem_flatten (List.mem_map_of_mem hd)

end FactSelection

end Java

end StructureGraph
