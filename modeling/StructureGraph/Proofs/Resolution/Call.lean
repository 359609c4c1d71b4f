import StructureGraph.Proofs.Resolution.Resolver
import StructureGraph.Proofs.Resolution.Search

namespace StructureGraph.Resolution

open StructureGraph.Java
open StructureGraph.Text (segments)

variable {files : Files} {origins : List Origin} {caller u : CompilationUnit} {d : TypeDeclaration}

/-- The unit is in the file of some qualified name in a directory among the origins. -/
def IsLoaded (files : Files) (origins : List Origin) (u : CompilationUnit) : Prop :=
  ∃ directory name, .directory directory ∈ origins ∧
    loadUnit? files (typeFile directory name) = some u

/-- The types to which calls of a unit can be led. -/
inductive IsWithinReach (files : Files) (origins : List Origin) (caller : CompilationUnit) :
    FoundType → Prop where
  | own {d : TypeDeclaration} : d ∈ caller.types →
      IsWithinReach files origins caller (.declared caller d)
  | loaded {u : CompilationUnit} {d : TypeDeclaration} : IsLoaded files origins u → d ∈ u.types →
      IsWithinReach files origins caller (.declared u d)
  | builtin {t : BuiltinType} : t ∈ BuiltinType.all →
      IsWithinReach files origins caller (.builtin t)

theorem mem_types_of_typeByPath? {path : List String} (h : u.typeByPath? path = some d) :
    d ∈ u.types :=
  List.mem_of_find?_eq_some h

private theorem isWithinReach_of_findType? {name : String} {t : FoundType}
    (h : findType? files origins name = some t) : IsWithinReach files origins caller t := by
  obtain ⟨o, ho, hfind⟩ := List.exists_of_findSome?_eq_some h
  cases o with
  | directory directory =>
    obtain ⟨n, -, hdeclared⟩ := List.exists_of_findSome?_eq_some hfind
    obtain ⟨u, hload, htype⟩ := Option.bind_eq_some_iff.mp hdeclared
    rw [typeOf?] at htype
    split at htype
    · obtain ⟨d, hd, rfl⟩ := Option.map_eq_some_iff.mp htype
      exact .loaded ⟨directory, _, ho, hload⟩ (mem_types_of_typeByPath? hd)
    · cases htype
  | builtin =>
    obtain ⟨t, ht, rfl⟩ := Option.map_eq_some_iff.mp hfind
    exact .builtin (List.mem_of_find?_eq_some ht)

private theorem isWithinReach_of_mem_supertypes {t t' : FoundType}
    (h : t' ∈ t.supertypes.run (findType? files origins)) :
    IsWithinReach files origins caller t' := by
  rcases exists_of_mem_supertypes h with ⟨name, hfind⟩ | rfl
  · exact isWithinReach_of_findType? hfind
  · exact .builtin (by simp [BuiltinType.all])

namespace Site

variable {s : Site} {c : Call} {text : String}

private theorem mem_types_of_mem_enclosing (h : d ∈ s.enclosing) : d ∈ s.unit.types := by
  obtain ⟨i, -, hi⟩ := List.mem_filterMap.mp h
  exact mem_types_of_typeByPath? hi

/-- A type within reach says that the call means this signature. -/
def IsAnswered (files : Files) (origins : List Origin) (s : Site) (c : Call) (text : String) : Prop :=
  ∃ t, IsWithinReach files origins s.unit t ∧
    t.verdict c.name (s.argumentTypes c) = .signature text

private theorem isAnswered_of_lookup {t : FoundType} (ht : IsWithinReach files origins s.unit t)
    (h : (lookup t c.name (s.argumentTypes c)).run (findType? files origins) = .signature text) :
    s.IsAnswered files origins c text :=
  verdict_of_lookup (fun _ _ _ ht' => isWithinReach_of_mem_supertypes ht') ht h

private theorem isAnswered_of_inherited {ds : List TypeDeclaration} (hds : ∀ d ∈ ds, d ∈ s.unit.types)
    (h : (s.inherited c ds).run (findType? files origins) = .signature text) :
    s.IsAnswered files origins c text := by
  induction ds with
  | nil => cases h
  | cons d ds ih =>
    obtain ⟨hd, hrest⟩ := List.forall_mem_cons.mp hds
    rw [inherited, Inquiry.run_bind] at h
    split at h
    · exact ih hrest h
    · exact isAnswered_of_lookup (.own hd) h

private theorem isAnswered_of_imported {owners : List String}
    (h : (s.imported c owners).run (findType? files origins) = .signature text) :
    s.IsAnswered files origins c text := by
  induction owners with
  | nil => cases h
  | cons owner owners ih =>
    rw [imported, Inquiry.run_bind] at h
    split at h
    · exact ih h
    · rename_i t ht
      rw [Inquiry.run_bind] at h
      split at h
      · rename_i text' htext
        rw [Inquiry.run_pure, Verdict.signature.injEq] at h
        exact isAnswered_of_lookup (isWithinReach_of_findType? ht) (h ▸ htext)
      · exact ih h

private theorem isAnswered_of_resolveImplicit
    (h : (s.resolveImplicit c).run (findType? files origins) = .resolved text) :
    s.IsAnswered files origins c text := by
  rw [resolveImplicit, Inquiry.run_bind] at h
  split at h
  · rename_i text' htext
    rw [Inquiry.run_pure, Outcome.resolved.injEq] at h
    exact isAnswered_of_inherited (fun _ => mem_types_of_mem_enclosing) (h ▸ htext)
  · cases h
  · rw [Inquiry.run_bind] at h
    split at h
    · rename_i text' htext
      rw [Inquiry.run_pure, Outcome.resolved.injEq] at h
      exact isAnswered_of_imported (h ▸ htext)
    · cases h

private theorem isWithinReach_of_writtenType? {written : String} {t : FoundType}
    (h : (s.writtenType? written).run (findType? files origins) = some t) :
    IsWithinReach files origins caller t := by
  obtain ⟨candidate, -, hfind⟩ := run_writtenType? h
  exact isWithinReach_of_findType? hfind

private theorem isWithinReach_of_receiverType? (hs : s.declaration ∈ s.unit.types) {receiver : Receiver}
    {t : FoundType} (h : (s.receiverType? receiver).run (findType? files origins) = some t) :
    IsWithinReach files origins s.unit t := by
  cases receiver with
  | implicit => exact Option.some.inj h ▸ .own hs
  | this => exact Option.some.inj h ▸ .own hs
  | super =>
    rw [receiverType?] at h
    split at h
    · exact isWithinReach_of_writtenType? h
    · exact isWithinReach_of_findType? h
  | name text =>
    simp only [receiverType?, namedType?] at h
    split at h
    · exact isWithinReach_of_writtenType? h
    · split at h
      · exact isWithinReach_of_writtenType? h
      · cases h
  | thisField name =>
    rw [receiverType?] at h
    split at h
    · exact isWithinReach_of_writtenType? h
    · cases h
  | created type => exact isWithinReach_of_writtenType? h
  | cast type => exact isWithinReach_of_writtenType? h
  | expression text => cases h

private theorem isAnswered_of_resolveOn {type? : Option FoundType}
    (htype : ∀ t, type? = some t → IsWithinReach files origins s.unit t)
    (h : (s.resolveOn c type?).run (findType? files origins) = .resolved text) :
    s.IsAnswered files origins c text := by
  cases type? with
  | none => cases h
  | some t =>
    rw [resolveOn, Inquiry.run_bind] at h
    split at h
    · rename_i text' htext
      rw [Inquiry.run_pure, Outcome.resolved.injEq] at h
      exact isAnswered_of_lookup (htype t rfl) (h ▸ htext)
    · cases h
    · cases h

theorem isAnswered_of_resolve (hs : s.declaration ∈ s.unit.types)
    (h : (s.resolve c).run (findType? files origins) = .resolved text) :
    s.IsAnswered files origins c text := by
  rw [resolve] at h
  split at h
  · exact isAnswered_of_resolveImplicit h
  · cases h
  · rw [Inquiry.run_bind] at h
    exact isAnswered_of_resolveOn (fun _ => isWithinReach_of_receiverType? hs) h

/-- The type of the receiver is written so at the call. -/
def WritesReceiver (s : Site) (written : String) : Receiver → Prop
  | .created type | .cast type => type = written
  | .super => s.declaration.superclass = some written
  | .name text => '.' ∉ text.toList ∧ s.variableType? text = some written
  | .thisField field => (s.declaration.field? field).map Field.typeName = some written
  | _ => False

private theorem receiverType?_of_writesReceiver {written : String} {receiver : Receiver}
    (h : s.WritesReceiver written receiver) : s.receiverType? receiver = s.writtenType? written := by
  cases receiver with
  | created type | cast type =>
    obtain rfl : type = written := h
    rfl
  | super =>
    have hsuper : s.declaration.superclass = some written := h
    rw [receiverType?, hsuper]
  | name text =>
    obtain ⟨hsimple, hvariable⟩ := h
    rw [receiverType?, namedType?, if_neg (by simpa using hsimple), hvariable]
  | thisField field =>
    obtain ⟨g, hg, rfl⟩ := Option.map_eq_some_iff.mp h
    rw [receiverType?, hg]
  | implicit | this | expression => cases h

/-- A call whose receiver has a written type is made on the type that is found under it. -/
theorem run_resolve_of_writesReceiver {written : String} {find : String → Option FoundType}
    (h : s.WritesReceiver written c.receiver) :
    (s.resolve c).run find = (s.resolveOn c ((s.writtenType? written).run find)).run find := by
  have hresolve : s.resolve c = s.receiverType? c.receiver >>= s.resolveOn c := by
    rw [resolve]
    cases hreceiver : c.receiver with
    | implicit | expression =>
      rw [hreceiver] at h
      cases h
    | _ => rfl
  rw [hresolve, receiverType?_of_writesReceiver h, Inquiry.run_bind]

/-- Such a call fails for want of the receiver's type just in case that type is not found. -/
theorem run_resolve_eq_unknown_iff {written : String} {find : String → Option FoundType}
    (h : s.WritesReceiver written c.receiver) :
    (s.resolve c).run find = .unresolved (.unknownReceiverType c.name) ↔
      (s.writtenType? written).run find = none := by
  rw [run_resolve_of_writesReceiver h]
  cases (s.writtenType? written).run find with
  | none => exact iff_of_true rfl rfl
  | some t =>
    refine iff_of_false ?_ (Option.some_ne_none t)
    rw [resolveOn, Inquiry.run_bind]
    cases (lookup t c.name (s.argumentTypes c)).run find <;> simp [Inquiry.run_pure]

end Site

/-- The methods of a declared type that a call to a name with so many arguments may mean. -/
def overloads (d : TypeDeclaration) (name : String) (count : Nat) : List Method :=
  d.methods.filter fun m => m.name == name && m.accepts count

/-- How many of the arguments are known to be of the type of the parameter that takes them. -/
def agreement (arguments : List (Option String)) (m : Method) : Nat :=
  Candidate.score ⟨m.name, m.parameters.map Parameter.typeName⟩ arguments

theorem overload_of_verdict {name text : String} {arguments : List (Option String)}
    (h : (FoundType.declared u d).verdict name arguments = .signature text) :
    ∃ m ∈ d.methods, m.name = name ∧ m.accepts arguments.length ∧ u.methodSignature d m = text ∧
      ∃ before after, overloads d name arguments.length = before ++ m :: after ∧
        ∀ m' ∈ before ++ after, agreement arguments m' < agreement arguments m := by
  obtain ⟨before, candidate, after, hcandidates, hsignature, hbest⟩ := Verdict.chosen_of_choose h
  obtain ⟨before, rest, hoverloads, rfl, hrest⟩ := List.map_eq_append_iff.mp hcandidates
  obtain ⟨m, after, rfl, rfl, rfl⟩ := List.map_eq_cons_iff.mp hrest
  rw [← List.map_append] at hbest
  have hmem : m ∈ overloads d name arguments.length := by
    rw [overloads, hoverloads]
    exact List.mem_append_right _ List.mem_cons_self
  obtain ⟨hm, hfits⟩ := List.mem_filter.mp hmem
  rw [Bool.and_eq_true, beq_iff_eq] at hfits
  exact ⟨m, hm, hfits.1, hfits.2, hsignature, before, after, hoverloads,
    List.forall_mem_map.mp hbest⟩

theorem builtin_of_verdict {t : BuiltinType} {name text : String} {arguments : List (Option String)}
    (h : (FoundType.builtin t).verdict name arguments = .signature text) :
    ∃ m ∈ t.methods, m.name = name ∧ m.parameters.length = arguments.length ∧ t.signature m = text := by
  obtain ⟨before, candidate, after, hcandidates, hsignature, -⟩ := Verdict.chosen_of_choose h
  have hmem : candidate ∈ (FoundType.builtin t).candidates name arguments.length := by
    rw [hcandidates]
    exact List.mem_append_right _ List.mem_cons_self
  obtain ⟨m, hm, rfl⟩ := List.mem_map.mp hmem
  obtain ⟨hm, hfits⟩ := List.mem_filter.mp hm
  rw [Bool.and_eq_true, beq_iff_eq, beq_iff_eq] at hfits
  exact ⟨m, hm, hfits.1, hfits.2, hsignature⟩

/-- Whatever a resolver was used for, a signature to which it resolves a call is that of a method of
the name which the call has and which takes its arguments: a method of `java.lang` that is known, or one
that is declared in the calling unit or in a unit of a directory. In the latter case the arguments agree
with it more than with any other method of the same type that the call may mean. -/
theorem resolved_signature_is_of_method (files : Files) (origins : List Origin)
    (uses : List Resolver.Use) (u : CompilationUnit) (index : Nat) (body : Method) (c : Call)
    (signature : String)
    (h : (((Resolver.ofOrigins origins).after files uses).pursue files (resolveAt u index body c)).1 =
      .resolved signature) :
    ∃ d, u.types[index]? = some d ∧
      let arguments := Site.argumentTypes ⟨u, d, body⟩ c
      ((∃ u' d' m, (u' = u ∨ IsLoaded files origins u') ∧ d' ∈ u'.types ∧ m ∈ d'.methods ∧
          m.name = c.name ∧ m.accepts c.arguments.length ∧ u'.methodSignature d' m = signature ∧
          ∃ before after, overloads d' c.name c.arguments.length = before ++ m :: after ∧
            ∀ m' ∈ before ++ after, agreement arguments m' < agreement arguments m) ∨
        ∃ t ∈ BuiltinType.all, ∃ m ∈ t.methods, m.name = c.name ∧
          m.parameters.length = c.arguments.length ∧ t.signature m = signature) := by
  rw [Resolver.pursue_after, resolveAt] at h
  split at h
  · rename_i d hd
    refine ⟨d, hd, ?_⟩
    let s : Site := ⟨u, d, body⟩
    have hcount : (s.argumentTypes c).length = c.arguments.length := List.length_map ..
    obtain ⟨t, ht, hverdict⟩ :=
      Site.isAnswered_of_resolve (s := s) (List.mem_of_getElem? hd) h
    rw [← hcount]
    cases ht with
    | own hd' =>
      obtain ⟨m, hm⟩ := overload_of_verdict hverdict
      exact .inl ⟨u, _, m, .inl rfl, hd', hm⟩
    | loaded hu' hd' =>
      obtain ⟨m, hm⟩ := overload_of_verdict hverdict
      exact .inl ⟨_, _, m, .inr hu', hd', hm⟩
    | builtin ht =>
      exact .inr ⟨_, ht, builtin_of_verdict hverdict⟩
  · cases h

/-- A call that means a method with a variable argument list, which is declared in another file. -/
theorem resolved_signature_is_of_method_varargs :
    let files := ((Files.empty ["home"]).writeText "B.java"
      "class B { static void f(int n) {} static void f(String... s) {} }").1
    let origins := originsOf ["."]
    let body : Method := ⟨"a", .publicAccess, false, [], .empty⟩
    let d : TypeDeclaration := ⟨"A", ["A"], .classType, none, [], [], [body], [], .initializer .empty⟩
    let u : CompilationUnit := ⟨none, [], [d]⟩
    let c : Call := ⟨"f", .name "B", [.known "String"], 1⟩
    let signature := "B.f(java.lang.String...)"
    ((Resolver.ofOrigins origins).pursue files (resolveAt u 0 body c)).1 = .resolved signature ∧
      ∃ u' d' m, (u' = u ∨ IsLoaded files origins u') ∧ d' ∈ u'.types ∧ m ∈ d'.methods ∧
        u'.methodSignature d' m = signature := by
  intro files origins body d u c signature
  have hresolved :
      ((Resolver.ofOrigins origins).pursue files (resolveAt u 0 body c)).1 = .resolved signature := by
    let find := findType? files origins
    let s : Site := ⟨u, d, body⟩
    have harguments : s.argumentTypes c = [some "String"] := by decide +kernel
    obtain ⟨t, ht, hverdict⟩ : ∃ t, (s.receiverType? c.receiver).run find = some t ∧
        t.verdict c.name [some "String"] = .signature signature :=
      ⟨((s.receiverType? c.receiver).run find).get (by decide +kernel),
        (Option.some_get _).symm, by decide +kernel⟩
    have hlookup : (lookup t c.name [some "String"]).run find = _ :=
      run_lookup_of_verdict (hverdict.trans_ne Verdict.noConfusion)
    have hcall : resolveAt u 0 body c = s.receiverType? c.receiver >>= s.resolveOn c := rfl
    rw [Resolver.pursue_ofOrigins, hcall,
      Inquiry.run_bind, ht, Site.resolveOn, Inquiry.run_bind, harguments, hlookup, hverdict]
    rfl
  refine ⟨hresolved, ?_⟩
  obtain ⟨_, -, hmethod | ⟨t, ht, m, hm, -, -, hsignature⟩⟩ :=
    resolved_signature_is_of_method files origins [] u 0 body c signature hresolved
  · obtain ⟨u', d', m, hu', hd', hm, -, -, hsignature, -⟩ := hmethod
    exact ⟨u', d', m, hu', hd', hm, hsignature⟩
  · have hother : ∀ t ∈ BuiltinType.all, ∀ m ∈ t.methods, t.signature m ≠ signature := by decide
    exact absurd hsignature (hother t ht m hm)

end StructureGraph.Resolution
