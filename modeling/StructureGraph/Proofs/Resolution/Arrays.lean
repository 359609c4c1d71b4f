import StructureGraph.Proofs.Java.TypeText
import StructureGraph.Proofs.Resolution.Call

namespace StructureGraph

open StructureGraph.Java
open StructureGraph.Text (segments)

namespace Java.TypeText

/-- The written type of an array, and that of its elements. -/
def IsArrayOf (array element : String) : Prop := erase array = erase element ++ "[]"

/-- A pair of brackets behind a type whose angle brackets are closed. -/
theorem isArrayOf_append {element : String} (h : depthAfter 0 element.toList = 0) :
    IsArrayOf (element ++ "[]") element := by
  have hbrackets : eraseFrom 0 "[]".toList = "[]".toList := by decide +kernel
  rw [IsArrayOf, erase, erase, String.toList_append, eraseFrom_append, h, hbrackets, String.ofList_append,
    String.ofList_toList]

private theorem base_append_brackets (erased : String) : base (erased ++ "[]") = base erased :=
  base_append erased (List.all_eq_true.mp (by decide))

private theorem suffix_append_brackets (erased : String) :
    suffix (erased ++ "[]") = suffix erased ++ "[]" :=
  suffix_append erased (List.all_eq_true.mp (by decide))

/-- Arrays are compared as another type than their elements. -/
theorem simple_ne_of_isArrayOf {array element : String} (h : IsArrayOf array element) :
    simple array ≠ simple element := by
  have hbrackets : suffix (erase array) ≠ "..." := by
    rw [h, suffix_append_brackets]
    intro hdots
    have hlast := congrArg (fun s => s.toList.getLast?) hdots
    simp at hlast
  intro hsame
  have hlength := congrArg String.length hsame
  have htwo : "[]".length = 2 := rfl
  simp only [simple] at hlength
  rw [if_neg hbrackets, h, base_append_brackets, suffix_append_brackets] at hlength
  split at hlength <;> simp only [String.length_append] at hlength <;> omega

end Java.TypeText

namespace Resolution

/-- Types that are written with brackets at the end are never found. -/
theorem run_writtenType?_of_bracket {u : CompilationUnit} {scope : List String} {written : String}
    (find : String → Option FoundType) (h : written.toList.getLast? = some ']') :
    (writtenType? u scope written).run find = none := by
  rw [writtenType?, if_pos (by simp [h])]
  rfl

namespace Site

variable {u : CompilationUnit} {d : TypeDeclaration} {body body' : Method}

private theorem variableType?_congr (h : body.variableType? = body'.variableType?) :
    variableType? ⟨u, d, body⟩ = variableType? ⟨u, d, body'⟩ := by
  funext name
  rw [variableType?, variableType?, h]
  rfl

private theorem argumentTypes_congr (h : body.variableType? = body'.variableType?) :
    argumentTypes ⟨u, d, body⟩ = argumentTypes ⟨u, d, body'⟩ := by
  have hargument : argumentType? ⟨u, d, body⟩ = argumentType? ⟨u, d, body'⟩ := by
    funext a
    cases a with
    | known type => rfl
    | «variable» name => rw [argumentType?, argumentType?, variableType?_congr h]
    | unknown => rfl
  funext c
  rw [argumentTypes, argumentTypes, hargument]

private theorem inherited_congr (h : body.variableType? = body'.variableType?) (c : Call)
    (ds : List TypeDeclaration) : inherited ⟨u, d, body⟩ c ds = inherited ⟨u, d, body'⟩ c ds := by
  induction ds with
  | nil => rfl
  | cons d' ds ih => rw [inherited, inherited, argumentTypes_congr h, ih]

private theorem imported_congr (h : body.variableType? = body'.variableType?) (c : Call)
    (owners : List String) :
    imported ⟨u, d, body⟩ c owners = imported ⟨u, d, body'⟩ c owners := by
  induction owners with
  | nil => rfl
  | cons owner owners ih => rw [imported, imported, argumentTypes_congr h, ih]

/-- What a call means depends on the body around it through the types of its variables only. -/
theorem resolve_congr (h : body.variableType? = body'.variableType?) :
    resolve ⟨u, d, body⟩ = resolve ⟨u, d, body'⟩ := by
  have hon : resolveOn ⟨u, d, body⟩ = resolveOn ⟨u, d, body'⟩ := by
    funext c found
    cases found with
    | none => rfl
    | some t => rw [resolveOn, resolveOn, argumentTypes_congr h]
  have hreceiver : receiverType? ⟨u, d, body⟩ = receiverType? ⟨u, d, body'⟩ := by
    funext receiver
    cases receiver with
    | name text =>
      rw [receiverType?, receiverType?, namedType?, namedType?, variableType?_congr h]
      rfl
    | _ => rfl
  funext c
  cases hc : c.receiver with
  | implicit =>
    rw [resolve, resolve, hc]
    show resolveImplicit _ c = resolveImplicit _ c
    rw [resolveImplicit, resolveImplicit, inherited_congr h, imported_congr h]
    rfl
  | expression text =>
    rw [resolve, resolve, hc]
  | _ =>
    rw [resolve, resolve, hc]
    simp only [hreceiver, hon]

end Site

end Resolution

/-- The same body with one element in the place of its variable argument list. -/
def Java.Method.withoutVarargs (m : Method) : Method :=
  { m with parameters := m.parameters.map fun p => { p with varargs := false } }

private theorem Java.Method.variableType?_withoutVarargs (m : Method) :
    m.withoutVarargs.variableType? = m.variableType? := by
  funext name
  rw [variableType?, variableType?, withoutVarargs]
  simp only [List.find?_map, Option.map_map]
  rfl

namespace Resolution

/-- No array whose type is written with brackets is taken for one of its elements. Calls on it stay
unresolved, and as an argument it counts as the array: it agrees with the parameters of that type and with none
of the type of the elements. But calls in a body with a variable argument list mean what they would mean if it
were one element. -/
theorem array_is_no_element (s : Site) (c : Call) :
    (∀ written, s.WritesReceiver written c.receiver → written.toList.getLast? = some ']' →
      ∀ find, (s.resolve c).run find = .unresolved (.unknownReceiverType c.name)) ∧
    (∀ name array i, c.arguments[i]? = some (.variable name) → s.variableType? name = some array →
      (s.argumentTypes c)[i]? = some (some (TypeText.simple array)) ∧
      ∀ candidate parameter, Candidate.parameterAt? candidate i = some parameter →
        (candidate.agreesAt (some (TypeText.simple array), i) ↔
          TypeText.simple parameter = TypeText.simple array) ∧
        ∀ element, TypeText.IsArrayOf array element → TypeText.simple parameter = TypeText.simple element →
          ¬candidate.agreesAt (some (TypeText.simple array), i)) ∧
    s.resolve c = Site.resolve ⟨s.unit, s.declaration, s.body.withoutVarargs⟩ c := by
  refine ⟨fun written hreceiver hbracket find => ?_, fun name array i hi hname => ⟨?_, ?_⟩, ?_⟩
  · exact (Site.run_resolve_eq_unknown_iff hreceiver).mpr (run_writtenType?_of_bracket find hbracket)
  · rw [Site.argumentTypes, List.getElem?_map, hi, Option.map_some, Site.argumentType?, hname,
      Option.map_some]
  · intro candidate parameter hparameter
    have hagrees : candidate.agreesAt (some (TypeText.simple array), i) ↔
        TypeText.simple parameter = TypeText.simple array := by
      simp [Candidate.agreesAt, hparameter]
    refine ⟨hagrees, fun element harray helement => ?_⟩
    rw [hagrees, helement]
    exact (TypeText.simple_ne_of_isArrayOf harray).symm
  · exact congrFun (Site.resolve_congr s.body.variableType?_withoutVarargs.symm) c

/-- A class with two overloads of a method, and a method with an array of it and a variable argument list. -/
def arrayCalls : Site :=
  let m : Method := ⟨"m", .packageAccess, false, [], .empty⟩
  let g : Method := ⟨"g", .packageAccess, false, [⟨"a", "A", false⟩], .empty⟩
  let g' : Method := ⟨"g", .packageAccess, false, [⟨"a", "A[]", false⟩], .empty⟩
  let f : Method := ⟨"f", .packageAccess, false, [⟨"x", "A[]", false⟩, ⟨"y", "A", true⟩],
    ⟨[⟨"m", .name "x", [], 1⟩, ⟨"g", .implicit, [.variable "x"], 1⟩,
      ⟨"m", .name "y", [], 1⟩, ⟨"g", .implicit, [.variable "y"], 1⟩], [], []⟩⟩
  let d : TypeDeclaration := ⟨"A", ["A"], .classType, none, [], [], [m, g, g', f], [], .initializer .empty⟩
  ⟨⟨none, [], [d]⟩, d, f⟩

theorem array_is_no_element_calls :
    (∀ find, (arrayCalls.resolve ⟨"m", .name "x", [], 1⟩).run find = .unresolved (.unknownReceiverType "m")) ∧
      arrayCalls.argumentTypes ⟨"g", .implicit, [.variable "x"], 1⟩ = [some "A[]"] ∧
      Candidate.agreesAt ⟨"A.g(A[])", ["A[]"]⟩ (some "A[]", 0) ∧
      ¬Candidate.agreesAt ⟨"A.g(A)", ["A"]⟩ (some "A[]", 0) ∧
      arrayCalls.resolve ⟨"m", .name "y", [], 1⟩ =
        Site.resolve ⟨arrayCalls.unit, arrayCalls.declaration, arrayCalls.body.withoutVarargs⟩
          ⟨"m", .name "y", [], 1⟩ := by
  have hx : arrayCalls.variableType? "x" = some ("A" ++ "[]") := by decide +kernel
  have harray : TypeText.simple ("A" ++ "[]") = "A[]" := by decide +kernel
  obtain ⟨hargument, hagrees⟩ :=
    (array_is_no_element arrayCalls ⟨"g", .implicit, [.variable "x"], 1⟩).2.1 "x" _ 0 rfl hx
  rw [harray] at hargument hagrees
  refine ⟨(array_is_no_element arrayCalls ⟨"m", .name "x", [], 1⟩).1 _ ⟨by decide, hx⟩ (by decide),
    congrArg (fun argument => [argument]) (Option.some.inj hargument), ?_, ?_,
    (array_is_no_element arrayCalls _).2.2⟩
  · exact (hagrees ⟨"A.g(A[])", ["A[]"]⟩ "A[]" rfl).1.mpr (by decide +kernel)
  · exact (hagrees ⟨"A.g(A)", ["A"]⟩ "A" rfl).2 "A" (TypeText.isArrayOf_append (by decide)) rfl

/-- A variable argument list is an array in the body, but calls on it and with it are resolved as if it were
one element. -/
theorem varargs_taken_for_element :
    let files := ((Files.empty ["home"]).writeText "A.java"
      "class A { void m() {} void g(A a) {} void g(A[] a) {} void f(A[] x, A... y) { x.m(); g(x); y.m(); g(y); } }").1
    let find := findType? files (originsOf ["."])
    loadUnit? files "./A.java" = some arrayCalls.unit ∧ arrayCalls.body ∈ arrayCalls.declaration.methods ∧
      arrayCalls.body.parameters.map Parameter.varargs = [false, true] ∧
      arrayCalls.body.calls.map (fun c => (arrayCalls.resolve c).run find) =
        [.unresolved (.unknownReceiverType "m"), .resolved "A.g(A[])", .resolved "A.m()", .resolved "A.g(A)"] := by
  intro files find
  let t : FoundType := .declared arrayCalls.unit arrayCalls.declaration
  have hload : loadUnit? files "./A.java" = some arrayCalls.unit := by decide +kernel
  have hdeclared : declaredType? files "." "A" = some t := by
    have hname : segments '.' "A" = ["A"] := by decide +kernel
    have hlengths : fileLengths ["A"] = [1] := by decide
    have hfile : typeFile "." (["A"].take 1) = "./A.java" := by decide +kernel
    rw [declaredType?, hname, hlengths, List.findSome?_singleton, declaredIn?, hfile, hload]
    rfl
  have hwritten : (arrayCalls.writtenType? "A").run find = some t := by
    have hnames : arrayCalls.unit.typeCandidates arrayCalls.declaration.path "A" = ["A"] := by decide +kernel
    rw [Site.writtenType?, writtenType?, hnames, if_neg (by decide), Inquiry.run_first?,
      List.findSome?_singleton]
    exact List.findSome?_eq_some_iff.mpr ⟨[], .directory ".", [.builtin], rfl, hdeclared, by simp⟩
  have harray : (arrayCalls.resolve ⟨"m", .name "x", [], 1⟩).run find =
      .unresolved (.unknownReceiverType "m") := by
    have hx : arrayCalls.WritesReceiver "A[]" (.name "x") := ⟨by decide, by decide +kernel⟩
    exact (Site.run_resolve_eq_unknown_iff hx).mpr (run_writtenType?_of_bracket find (by decide))
  have hvarargs : (arrayCalls.resolve ⟨"m", .name "y", [], 1⟩).run find = .resolved "A.m()" := by
    have hy : arrayCalls.WritesReceiver "A" (.name "y") := ⟨by decide, by decide +kernel⟩
    have hm : t.verdict "m" (arrayCalls.argumentTypes ⟨"m", .name "y", [], 1⟩) = .signature "A.m()" := by
      decide +kernel
    rw [Site.run_resolve_of_writesReceiver hy, hwritten, Site.resolveOn, Inquiry.run_bind,
      run_lookup_of_signature hm]
    rfl
  have hpassed : ∀ argument text,
      t.verdict "g" (arrayCalls.argumentTypes ⟨"g", .implicit, [argument], 1⟩) = .signature text →
      (arrayCalls.resolve ⟨"g", .implicit, [argument], 1⟩).run find = .resolved text := by
    intro argument text hverdict
    have henclosing : arrayCalls.enclosing = [arrayCalls.declaration] := by decide
    show (arrayCalls.resolveImplicit _).run find = _
    rw [Site.resolveImplicit, Inquiry.run_bind, henclosing, Site.inherited, Inquiry.run_bind,
      run_lookup_of_signature hverdict]
    rfl
  refine ⟨hload, by decide, by decide, ?_⟩
  show [_, _, _, _] = _
  beta_reduce
  rw [harray, hpassed _ "A.g(A[])" (by decide +kernel), hvarargs, hpassed _ "A.g(A)" (by decide +kernel)]

end Resolution

end StructureGraph
