import StructureGraph.Proofs.Resolution.Overloads
import StructureGraph.Proofs.Resolution.Signatures

namespace StructureGraph.Resolution

open StructureGraph.Java
open StructureGraph.Java.TypeText (IsErased IsKept)
open StructureGraph.Text (lastSegment)

variable {u : CompilationUnit} {scope : List String} {name written candidate : String}

/-- No candidate has brackets or dots at its end. -/
theorem MayMean.base_eq (h : MayMean u scope name candidate) (hbase : TypeText.base name = name)
    (hne : name ≠ "") (hdot : '.' ∉ name.toList) : TypeText.base candidate = candidate := by
  obtain ⟨before, hsplit⟩ := @Text.exists_eq_append_lastSegment '.' candidate
  rw [h.lastSegment_eq, Text.lastSegment_of_not_mem hdot] at hsplit
  rw [hsplit]
  exact TypeText.base_append_of_base_eq hbase hne before

private theorem base_of_mem_typeCandidates (h : candidate ∈ u.typeCandidates scope written) :
    TypeText.base candidate = candidate := by
  have hmeans := mayMean_of_mem_typeCandidates h
  rw [CompilationUnit.typeCandidates] at h
  simp only [← baseName.eq_def] at h
  split at h
  · rw [List.mem_singleton.mp h]
    exact TypeText.base_base _
  · rename_i hname
    simp only [not_or, List.contains_eq_mem, decide_eq_true_eq] at hname
    exact hmeans.base_eq (TypeText.base_base _) hname.1 hname.2.2

private theorem isErased_of_mem_typeCandidates (hu : IsMadeOf IsKept u)
    (h : candidate ∈ u.typeCandidates scope written) :
    IsErased candidate := by
  have hlang : IsErased "java.lang" := by decide +kernel
  exact (mayMean_of_mem_typeCandidates h).forall_mem hu (by decide +kernel) hlang
    (TypeText.isErased_base_and_suffix written).1

/-- To qualify a type does not change what it simply is. -/
theorem simple_qualifyType (hu : IsMadeOf IsKept u) (scope : List String) (written : String) :
    TypeText.simple (u.qualifyType scope written) = TypeText.simple written := by
  obtain ⟨c, cs, hcs⟩ := List.exists_cons_of_ne_nil (typeCandidates_ne_nil u scope written)
  have hc : c ∈ u.typeCandidates scope written := hcs ▸ List.mem_cons_self
  have hqualified : u.qualifyType scope written = c ++ TypeText.suffix (TypeText.erase written) := by
    rw [CompilationUnit.qualifyType, hcs, List.headD_cons]
  have hsuffix : ∀ x ∈ (TypeText.suffix (TypeText.erase written)).toList, TypeText.isSuffix x :=
    fun x hx => TypeText.isSuffix_of_mem_suffix hx
  have herase := TypeText.erase_of_isErased
    ((isErased_of_mem_typeCandidates hu hc).append (TypeText.isErased_base_and_suffix written).2)
  have hbase := base_of_mem_typeCandidates hc
  rw [TypeText.simple, TypeText.simple, hqualified, herase, TypeText.base_append c hsuffix,
    TypeText.suffix_append c hsuffix, hbase, TypeText.suffix_eq_empty hbase, String.empty_append,
    (mayMean_of_mem_typeCandidates hc).lastSegment_eq, baseName]

/-- The candidate with its parameters qualified. -/
def Candidate.qualified (u : CompilationUnit) (scope : List String) (c : Candidate) : Candidate :=
  { c with parameters := c.parameters.map (u.qualifyType scope) }

namespace Candidate

variable {arguments : List (Option String)}

private theorem agreesAt_qualified (hu : IsMadeOf IsKept u) (scope : List String) (c : Candidate) :
    (c.qualified u scope).agreesAt = c.agreesAt := by
  funext argument
  have hparameter : (c.qualified u scope).parameterAt? argument.2 =
      (c.parameterAt? argument.2).map (u.qualifyType scope) := by
    rw [parameterAt?, parameterAt?, qualified, List.getElem?_map, List.getLast?_map, Option.map_or]
  rw [agreesAt, agreesAt, hparameter]
  cases argument.1 with
  | none => rfl
  | some type =>
    cases c.parameterAt? argument.2 with
    | none => rfl
    | some parameter => simp only [Option.map_some, simple_qualifyType hu]

private theorem score_qualified (hu : IsMadeOf IsKept u) (scope : List String) (c : Candidate) :
    (c.qualified u scope).score arguments = c.score arguments := by
  rw [score, score, agreesAt_qualified hu]

end Candidate

/-- The choice depends on the signatures of the candidates and on their scores. -/
theorem Verdict.choose_map {f : Candidate → Candidate} {arguments : List (Option String)}
    (hsignature : ∀ c, (f c).signature = c.signature)
    (hscore : ∀ c, (f c).score arguments = c.score arguments) (cs : List Candidate) :
    choose (cs.map f) arguments = choose cs arguments := by
  match cs with
  | [] => rfl
  | [c] => exact congrArg signature (hsignature c)
  | c :: c' :: cs =>
    have hbest : bestScore ((c :: c' :: cs).map f) arguments = bestScore (c :: c' :: cs) arguments := by
      rw [bestScore, bestScore, List.map_map]
      exact congrArg _ (List.map_congr_left fun d _ => hscore d)
    rw [choose_of_two_le (by simp), choose_of_two_le (by simp), hbest, List.filter_map]
    simp only [Function.comp_def, hscore]
    generalize (c :: c' :: cs).filter _ = best
    match best with
    | [] => rfl
    | [d] => exact congrArg signature (hsignature d)
    | _ :: _ :: _ => rfl

/-- Qualified names end in the names that they are meant by, and so no type is simply another one when it is
qualified. Candidates for a call are chosen among alike, whether their parameters are written simply or qualified. -/
theorem qualifying_keeps_simple_types (u : CompilationUnit) (scope : List String) :
    (∀ written, u.typeCandidates scope written ≠ [] ∧
      ('.' ∉ (baseName written).toList →
        ∀ candidate ∈ u.typeCandidates scope written, lastSegment '.' candidate = baseName written)) ∧
    (IsMadeOf IsKept u →
      (∀ written, TypeText.simple (u.qualifyType scope written) = TypeText.simple written) ∧
      ∀ cs arguments, Verdict.choose (cs.map (Candidate.qualified u scope)) arguments =
        Verdict.choose cs arguments) := by
  refine ⟨fun written => ⟨typeCandidates_ne_nil u scope written, fun hdot candidate h => ?_⟩, fun hu => ⟨?_, ?_⟩⟩
  · rw [(mayMean_of_mem_typeCandidates h).lastSegment_eq, Text.lastSegment_of_not_mem hdot]
  · exact simple_qualifyType hu scope
  · intro cs arguments
    have hsignature (c : Candidate) : (c.qualified u scope).signature = c.signature := rfl
    exact Verdict.choose_map hsignature (Candidate.score_qualified hu scope) cs

theorem qualifying_keeps_simple_types_list :
    listUnit.qualifyType ["A"] "List < A > [ ]" = "java.util.List[]" ∧
      TypeText.simple "java.util.List[]" = TypeText.simple "List < A > [ ]" ∧
      listUnit.typeCandidates ["A"] "B" = ["p.q.B", "java.lang.B"] ∧
      (∀ candidate ∈ listUnit.typeCandidates ["A"] "B", lastSegment '.' candidate = "B") ∧
      Verdict.choose [⟨"m(p.q.A)", ["p.q.A"]⟩, ⟨"m(java.util.List)", ["java.util.List"]⟩] [some "List"] =
        Verdict.choose [⟨"m(p.q.A)", ["A"]⟩, ⟨"m(java.util.List)", ["List<A>"]⟩] [some "List"] := by
  have hunit : IsMadeOf IsKept listUnit := by
    have himports : ∀ i ∈ listUnit.imports, IsErased i.path := by decide +kernel
    have htypes : ∀ d ∈ listUnit.types, ∀ n ∈ d.path, IsErased n := by decide +kernel
    have hpackage : ∀ package ∈ listUnit.package, IsErased package := by decide +kernel
    exact ⟨hpackage, himports, htypes⟩
  have hlist : listUnit.qualifyType ["A"] "List < A > [ ]" = "java.util.List[]" := by decide +kernel
  have hname : baseName "B" = "B" := by decide +kernel
  obtain ⟨hcandidates, hqualified⟩ := qualifying_keeps_simple_types listUnit ["A"]
  obtain ⟨hsimple, hchoice⟩ := hqualified hunit
  refine ⟨hlist, hlist ▸ hsimple _, by decide +kernel, ?_, ?_⟩
  · rw [← hname]
    exact (hcandidates _).2 (by decide +kernel)
  · have hmap : ([⟨"m(p.q.A)", ["A"]⟩, ⟨"m(java.util.List)", ["List<A>"]⟩] : List Candidate).map
        (Candidate.qualified listUnit ["A"]) =
        [⟨"m(p.q.A)", ["p.q.A"]⟩, ⟨"m(java.util.List)", ["java.util.List"]⟩] := by decide +kernel
    rw [← hmap]
    exact hchoice _ _

end StructureGraph.Resolution
