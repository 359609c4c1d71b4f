import Mathlib.Data.List.Basic
import StructureGraph.Proofs.Java.Facts
import StructureGraph.Java.Source

namespace StructureGraph

/-- The fact states a call. -/
def Fact.statesCall : Fact → Bool
  | .methodCall .. => true
  | _ => false

namespace Java

/-- Nothing but `this` is written before the method name. -/
def Call.IsOnSelf (c : Call) : Prop := c.receiver = .implicit ∨ c.receiver = .this

namespace TypeDeclaration

/-- A private method of the type has the name of the call. -/
def NamesPrivate (d : TypeDeclaration) (c : Call) : Prop :=
  ∃ m ∈ d.methods, m.name = c.name ∧ m.visibility = .privateAccess

/-- A private method of the type has the name of the call and accepts its arguments. -/
def BindsPrivate (d : TypeDeclaration) (c : Call) : Prop :=
  ∃ m ∈ d.methods, (m.name = c.name ∧ m.visibility = .privateAccess) ∧ m.accepts c.arguments.length

variable {d : TypeDeclaration} {c : Call}

instance : Decidable c.IsOnSelf := inferInstanceAs (Decidable (_ ∨ _))

instance : Decidable (d.NamesPrivate c) := inferInstanceAs (Decidable (∃ m ∈ d.methods, _))

instance : Decidable (d.BindsPrivate c) := inferInstanceAs (Decidable (∃ m ∈ d.methods, _))

theorem BindsPrivate.names (h : d.BindsPrivate c) : d.NamesPrivate c := by
  obtain ⟨m, hm, hprivate, -⟩ := h
  exact ⟨m, hm, hprivate⟩

private theorem hasPrivateMethod_iff : d.hasPrivateMethod c.name ↔ d.NamesPrivate c := by
  simp only [hasPrivateMethod, NamesPrivate, List.any_eq_true, Bool.and_eq_true, beq_iff_eq]

end TypeDeclaration

namespace FactSelection

variable {s : FactSelection} {significant : Option (List String)} {u : CompilationUnit}
  {d : TypeDeclaration} {m : Method} {c : Call}

/-- The calls of a method but for those on the object itself whose name is that of a private method. -/
def callsKept (s : FactSelection) (d : TypeDeclaration) (m : Method) : List Call :=
  m.calls.filter fun c => ¬(s.omitPrivateMethodCalls ∧ c.IsOnSelf ∧ d.NamesPrivate c)

/-- The calls of a method but for those on the object itself that a private method accepts. -/
def callsWanted (s : FactSelection) (d : TypeDeclaration) (m : Method) : List Call :=
  m.calls.filter fun c => ¬(s.omitPrivateMethodCalls ∧ c.IsOnSelf ∧ d.BindsPrivate c)

private theorem isOwnPrivate_iff : isOwnPrivate d c ↔ c.IsOnSelf ∧ d.NamesPrivate c := by
  rw [isOwnPrivate, Bool.and_eq_true, TypeDeclaration.hasPrivateMethod_iff, Bool.or_eq_true, beq_iff_eq,
    beq_iff_eq, Call.IsOnSelf]

private theorem callFacts_eq (s : FactSelection) (d : TypeDeclaration) (m : Method) :
    s.callFacts d m = (s.callsKept d m).map fun c => .methodCall d.name m.name c.name := by
  have hkept : ∀ c, (!(s.omitPrivateMethodCalls && isOwnPrivate d c)) =
      decide ¬(s.omitPrivateMethodCalls ∧ c.IsOnSelf ∧ d.NamesPrivate c) := by
    intro c
    simp only [← isOwnPrivate_iff]
    cases s.omitPrivateMethodCalls <;> simp
  simp only [callFacts, callsKept, hkept]

private theorem filter_statesCall_methodFacts (hcalls : s.methodCalls = true) :
    (s.methodFacts d m).filter Fact.statesCall = s.callFacts d m := by
  have hown : ∀ f ∈ s.callFacts d m, f.statesCall := by
    intro f hf
    rw [callFacts_eq] at hf
    obtain ⟨c, -, rfl⟩ := List.mem_map.mp hf
    rfl
  have hother : ((if s.controlFlow then m.branches.map fun b => .controlFlow d.name m.name b.kind b.condition
      else []) : List Fact).filter Fact.statesCall = [] := by
    refine List.filter_eq_nil_iff.mpr fun f hf => ?_
    obtain ⟨-, hf⟩ := List.mem_ite_nil_right.mp hf
    obtain ⟨b, -, rfl⟩ := List.mem_map.mp hf
    exact Bool.false_ne_true
  rw [methodFacts, List.filter_cons_of_neg Bool.false_ne_true, List.filter_append, hother, if_pos hcalls,
    List.filter_eq_self.mpr hown, List.append_nil]

private theorem callsKept_sublist_callsWanted (s : FactSelection) (d : TypeDeclaration) (m : Method) :
    (s.callsKept d m).Sublist (s.callsWanted d m) := by
  refine List.monotone_filter_right _ fun c hc => ?_
  simp only [decide_eq_true_eq] at hc ⊢
  exact fun ⟨homit, hself, hbinds⟩ => hc ⟨homit, hself, hbinds.names⟩

private theorem callsKept_eq_callsWanted_iff : s.callsKept d m = s.callsWanted d m ↔
    (s.omitPrivateMethodCalls → ∀ c ∈ m.calls, c.IsOnSelf → d.NamesPrivate c → d.BindsPrivate c) := by
  constructor
  · intro h homit c hc hself hnames
    by_contra hbinds
    have hwanted : c ∈ s.callsWanted d m :=
      List.mem_filter.mpr ⟨hc, decide_eq_true fun ⟨_, _, h⟩ => hbinds h⟩
    rw [← h, callsKept, List.mem_filter, decide_eq_true_eq] at hwanted
    exact hwanted.2 ⟨homit, hself, hnames⟩
  · intro h
    refine List.filter_congr fun c hc => ?_
    rw [decide_eq_decide, not_iff_not]
    exact ⟨fun ⟨homit, hself, hnames⟩ => ⟨homit, hself, h homit c hc hself hnames⟩,
      fun ⟨homit, hself, hbinds⟩ => ⟨homit, hself, hbinds.names⟩⟩

/-- Of each method that counts, its calls are stated in their order but for those on the object itself that
have the name of a private method. So all calls are stated that are to be, and no others, just in case each
such call is accepted by a private method. -/
theorem calls_stated (s : FactSelection) (significant : Option (List String)) (u : CompilationUnit)
    (hmethods : s.methods = true) (hcalls : s.methodCalls = true) :
    ((s.facts significant u).filter Fact.statesCall = u.types.flatMap fun d =>
      (d.methods.filter (s.includes significant u d)).flatMap fun m =>
        (s.callsKept d m).map fun c => .methodCall d.name m.name c.name) ∧
    ∀ (d : TypeDeclaration) (m : Method), (s.callsKept d m).Sublist (s.callsWanted d m) ∧
      (s.callsKept d m = s.callsWanted d m ↔
        (s.omitPrivateMethodCalls → ∀ c ∈ m.calls, c.IsOnSelf → d.NamesPrivate c → d.BindsPrivate c)) := by
  refine ⟨?_, fun d m => ⟨callsKept_sublist_callsWanted s d m, callsKept_eq_callsWanted_iff⟩⟩
  have hmethod : ∀ f : Fact, f.statesCall → f.isOfMethod := by
    intro f hf
    cases f <;> first | rfl | exact absurd hf Bool.false_ne_true
  rw [facts, List.filter_flatMap]
  simp only [filter_typeFacts hmethod hmethods, filter_statesCall_methodFacts hcalls, callFacts_eq]

end FactSelection

/-- A class with a private and a public method of a name, and a method that calls one of them. -/
def overloadUnit (arguments : List Argument) : CompilationUnit :=
  let m : Method := ⟨"m", .privateAccess, false, [], .empty⟩
  let m' : Method := ⟨"m", .publicAccess, false, [⟨"x", "int", false⟩], .empty⟩
  let f : Method := ⟨"f", .packageAccess, false, [], ⟨[⟨"m", .implicit, arguments, 1⟩], [], []⟩⟩
  ⟨none, [], [⟨"A", ["A"], .classType, none, [], [], [m, m', f], [], .initializer .empty⟩]⟩

/-- The private method is called. -/
theorem calls_stated_private :
    let s : FactSelection := { omitPrivateMethodCalls := true }
    CompilationUnit.ofText "A.java"
        "class A { private void m() {} public void m(int x) {} void f() { m(); } }" = .ok (overloadUnit []) ∧
      (s.facts none (overloadUnit [])).filter Fact.statesCall = [] ∧
      ∀ d ∈ (overloadUnit []).types, ∀ m ∈ d.methods, s.callsKept d m = s.callsWanted d m := by
  intro s
  obtain ⟨hstated, hwanted⟩ := FactSelection.calls_stated s none (overloadUnit []) rfl rfl
  refine ⟨by decide +kernel, hstated.trans (by decide), fun d hd m hm => (hwanted d m).2.mpr fun _ => ?_⟩
  revert d m
  decide

/-- The public method is called, and the call is omitted. -/
theorem call_of_public_overload_omitted :
    let s : FactSelection := { omitPrivateMethodCalls := true }
    let u := overloadUnit [.known "int"]
    CompilationUnit.ofText "A.java"
        "class A { private void m() {} public void m(int x) {} void f() { m(1); } }" = .ok u ∧
      (s.facts none u).filter Fact.statesCall = [] ∧
      u.types.map (fun d => d.methods.flatMap fun m => (s.callsWanted d m).map Call.name) = [["m"]] := by
  decide +kernel

end Java

end StructureGraph
