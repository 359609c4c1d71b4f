import Mathlib.Data.Set.Card
import StructureGraph.Proofs.Resolution.Candidates
import StructureGraph.Proofs.Resolution.Correspondence

namespace StructureGraph.Resolution

open StructureGraph.Java

variable {name : String} {arguments : List (Option String)} {count : Nat}

namespace Candidate

/-- The argument at a position is known to have the simple type of the parameter that takes it. -/
def Agrees (c : Candidate) (arguments : List (Option String)) (i : Nat) : Prop :=
  ∃ parameter, c.parameterAt? i = some parameter ∧
    arguments[i]? = some (some (TypeText.simple parameter))

/-- At how many positions a candidate agrees with the arguments. -/
noncomputable def agreements (c : Candidate) (arguments : List (Option String)) : Nat :=
  {i | c.Agrees arguments i}.ncard

private theorem agreesAt_iff {c : Candidate} {a : Option String} {i : Nat} (h : arguments[i]? = some a) :
    c.agreesAt (a, i) ↔ c.Agrees arguments i := by
  rw [Agrees, h, agreesAt]
  cases a with
  | none => exact iff_of_false Bool.noConfusion (by simp)
  | some type =>
    cases c.parameterAt? i with
    | none => exact iff_of_false Bool.noConfusion (by simp)
    | some parameter =>
      simp only [beq_iff_eq, Option.some.injEq, exists_eq_left']
      exact eq_comm

private theorem agreements_eq_score (c : Candidate) (arguments : List (Option String)) :
    c.agreements arguments = c.score arguments := by
  let positions := (arguments.zipIdx.filter c.agreesAt).map Prod.snd
  have hmem : ∀ i, c.Agrees arguments i ↔ i ∈ positions := by
    intro i
    simp only [positions, List.mem_map, List.mem_filter, Prod.exists, List.mem_zipIdx_iff_getElem?]
    constructor
    · intro hagrees
      obtain ⟨parameter, hparameter, ha⟩ := hagrees
      exact ⟨_, i, ⟨ha, (agreesAt_iff ha).mpr ⟨parameter, hparameter, ha⟩⟩, rfl⟩
    · rintro ⟨a, j, ⟨ha, hagrees⟩, rfl⟩
      exact (agreesAt_iff ha).mp hagrees
  have hnodup : positions.Nodup := by
    refine List.Nodup.sublist (List.filter_sublist.map _) ?_
    rw [List.zipIdx_map_snd]
    exact List.nodup_range'
  have hset : {i | c.Agrees arguments i} = ↑positions.toFinset := by
    ext i
    simp [hmem]
  rw [agreements, hset, Set.ncard_coe_finset, List.toFinset_card_of_nodup hnodup, score,
    List.countP_eq_length_filter, List.length_map]

end Candidate

namespace Verdict

variable {cs cs' : List Candidate} {text : String}

theorem choose_of_two_le (h : 2 ≤ cs.length) : choose cs arguments =
    match cs.filter fun c => c.score arguments == bestScore cs arguments with
    | [c] => signature c.signature
    | _ => ambiguous := by
  match cs, h with
  | _ :: _ :: _, _ => rfl

private theorem foldl_max_mem (ns : List Nat) (n : Nat) : ns.foldl max n = n ∨ ns.foldl max n ∈ ns := by
  induction ns generalizing n with
  | nil => exact .inl rfl
  | cons k ns ih =>
    rw [List.foldl_cons]
    rcases ih (max n k) with h | h
    · rw [h]
      rcases Nat.le_total n k with hle | hle
      · exact .inr (by simp [Nat.max_eq_right hle])
      · exact .inl (Nat.max_eq_left hle)
    · exact .inr (List.mem_cons_of_mem k h)

private theorem exists_bestScore (h : cs ≠ []) : ∃ c ∈ cs, c.score arguments = bestScore cs arguments := by
  obtain ⟨c, rest, rfl⟩ := List.exists_cons_of_ne_nil h
  rcases foldl_max_mem ((c :: rest).map (·.score arguments)) 0 with hzero | hmem
  · have hle : c.score arguments ≤ bestScore (c :: rest) arguments :=
      score_le_bestScore List.mem_cons_self
    rw [bestScore, hzero] at hle
    exact ⟨c, List.mem_cons_self, (Nat.le_zero.mp hle).trans hzero.symm⟩
  · obtain ⟨c', hc', hscore⟩ := List.mem_map.mp hmem
    exact ⟨c', hc', hscore⟩

/-- One of some candidates has a greater score than each of the others. -/
def Excels (arguments : List (Option String)) (cs : List Candidate) (c : Candidate) : Prop :=
  ∃ others, cs.Perm (c :: others) ∧ ∀ c' ∈ others, c'.score arguments < c.score arguments

private theorem excels_perm (h : cs.Perm cs') {c : Candidate} (hc : Excels arguments cs c) :
    Excels arguments cs' c := by
  obtain ⟨others, hperm, hless⟩ := hc
  exact ⟨others, h.symm.trans hperm, hless⟩

/-- A candidate that excels is the only one with the best score. -/
theorem filter_bestScore {c : Candidate} {others : List Candidate} (hperm : cs.Perm (c :: others))
    (hless : ∀ c' ∈ others, c'.score arguments < c.score arguments) :
    (cs.filter fun c' => c'.score arguments == bestScore cs arguments) = [c] := by
  have hc : c ∈ cs := hperm.mem_iff.mpr List.mem_cons_self
  have hle : c.score arguments ≤ bestScore cs arguments := score_le_bestScore hc
  have hbest : c.score arguments = bestScore cs arguments := by
    obtain ⟨c', hc', hscore⟩ : ∃ c' ∈ cs, c'.score arguments = bestScore cs arguments :=
      exists_bestScore (List.ne_nil_of_mem hc)
    rcases List.mem_cons.mp (hperm.mem_iff.mp hc') with rfl | hother
    · exact hscore
    · have hlt := hless c' hother
      omega
  have hnone : (others.filter fun c' => c'.score arguments == bestScore cs arguments) = [] := by
    refine List.filter_eq_nil_iff.mpr fun c' hc' => ?_
    have hlt := hless c' hc'
    simp only [beq_iff_eq]
    omega
  have hwinner := hperm.filter fun c' => c'.score arguments == bestScore cs arguments
  rw [List.filter_cons_of_pos (by simp [hbest]), hnone] at hwinner
  exact List.perm_singleton.mp hwinner

private theorem choose_of_excels {c : Candidate} (h : Excels arguments cs c) :
    choose cs arguments = signature c.signature := by
  obtain ⟨others, hperm, hless⟩ := h
  cases others with
  | nil =>
    rw [List.perm_singleton.mp hperm]
    rfl
  | cons other others =>
    have htwo : 2 ≤ cs.length := by
      rw [hperm.length_eq]
      simp
    rw [choose_of_two_le htwo, filter_bestScore hperm hless]

private theorem choose_eq_signature_iff :
    choose cs arguments = signature text ↔ ∃ c, Excels arguments cs c ∧ c.signature = text := by
  constructor
  · intro h
    obtain ⟨before, c, after, rfl, rfl, hless⟩ := chosen_of_choose h
    exact ⟨c, ⟨before ++ after, List.perm_middle, hless⟩, rfl⟩
  · rintro ⟨c, hc, rfl⟩
    exact choose_of_excels hc

/-- The order of the candidates makes no difference. -/
theorem choose_perm (h : cs.Perm cs') : choose cs arguments = choose cs' arguments := by
  cases hv : choose cs arguments with
  | signature text =>
    obtain ⟨c, hc, rfl⟩ := choose_eq_signature_iff.mp hv
    exact (choose_of_excels (excels_perm h hc)).symm
  | missing =>
    rw [choose_eq_missing_iff] at hv
    rw [hv] at h
    rw [List.nil_perm.mp h]
    rfl
  | ambiguous =>
    cases hv' : choose cs' arguments with
    | signature text =>
      obtain ⟨c, hc, rfl⟩ := choose_eq_signature_iff.mp hv'
      rw [choose_of_excels (excels_perm h.symm hc)] at hv
      cases hv
    | missing =>
      rw [choose_eq_missing_iff] at hv'
      rw [hv', List.perm_nil] at h
      rw [h] at hv
      cases hv
    | ambiguous => rfl

/-- A candidate that agrees with as many arguments as any. -/
def IsBest (arguments : List (Option String)) (cs : List Candidate) (i : Fin cs.length) : Prop :=
  ∀ j : Fin cs.length, cs[j].agreements arguments ≤ cs[i].agreements arguments

private theorem only_best_iff {i : Fin cs.length} :
    (IsBest arguments cs i ∧ ∀ j, IsBest arguments cs j → j = i) ↔
      ∀ c ∈ cs.eraseIdx i, c.score arguments < cs[i].score arguments := by
  simp only [IsBest, Candidate.agreements_eq_score]
  constructor
  · rintro ⟨hbest, honly⟩ c hc
    obtain ⟨j, hj, hne, rfl⟩ := List.mem_eraseIdx_iff_getElem.mp hc
    by_contra hle
    have hji : (⟨j, hj⟩ : Fin cs.length) = i := by
      refine honly ⟨j, hj⟩ fun k => (hbest k).trans ?_
      exact Nat.not_lt.mp hle
    exact hne (congrArg Fin.val hji)
  · intro hless
    have hother : ∀ j : Fin cs.length, j ≠ i → cs[j].score arguments < cs[i].score arguments := by
      intro j hne
      refine hless _ (List.mem_eraseIdx_iff_getElem.mpr ⟨j, j.isLt, fun h => hne (Fin.ext h), rfl⟩)
    refine ⟨fun j => ?_, fun j hj => ?_⟩
    · by_cases hji : j = i
      · rw [hji]
      · exact (hother j hji).le
    · by_contra hji
      exact absurd (hj i) (Nat.not_le.mpr (hother j hji))

private theorem choose_eq_signature_iff_best :
    choose cs arguments = signature text ↔
      ∃ i, (IsBest arguments cs i ∧ ∀ j, IsBest arguments cs j → j = i) ∧ cs[i].signature = text := by
  constructor
  · intro h
    obtain ⟨before, c, after, rfl, rfl, hless⟩ := chosen_of_choose h
    have hlength : before.length < (before ++ c :: after).length := by simp
    refine ⟨⟨before.length, hlength⟩, only_best_iff.mpr ?_, by simp⟩
    simpa [List.eraseIdx_append_of_length_le] using hless
  · rintro ⟨i, hi, rfl⟩
    exact choose_of_excels ⟨cs.eraseIdx i, (List.getElem_cons_eraseIdx_perm i.isLt).symm, only_best_iff.mp hi⟩

end Verdict

/-- Some are put in another order, and some that do not matter are added or left out. -/
inductive Rearranges {α : Type} (matters : α → Bool) : List α → List α → Prop where
  | reordered {ms ms' : List α} : ms.Perm ms' → Rearranges matters ms ms'
  | added {m : α} (ms : List α) : matters m = false → Rearranges matters ms (m :: ms)
  | left {m : α} (ms : List α) : matters m = false → Rearranges matters (m :: ms) ms
  | trans {ms ms' ms'' : List α} :
      Rearranges matters ms ms' → Rearranges matters ms' ms'' → Rearranges matters ms ms''

private theorem Rearranges.perm_filter {α : Type} {matters : α → Bool} {ms ms' : List α}
    (h : Rearranges matters ms ms') : (ms.filter matters).Perm (ms'.filter matters) := by
  induction h with
  | reordered hperm => exact hperm.filter _
  | added ms hm => rw [List.filter_cons_of_neg (by simp [hm])]
  | left ms hm => rw [List.filter_cons_of_neg (by simp [hm])]
  | trans _ _ ih ih' => exact ih.trans ih'

/-- The same declaration but for its methods, of which those that the call may mean are the same. -/
def Redeclares (name : String) (count : Nat) (d d' : TypeDeclaration) : Prop :=
  ∃ methods, d' = { d with methods := methods } ∧
    Rearranges (fun m => m.name == name && m.accepts count) d.methods methods

/-- The same type but for methods, of itself and of the types of its unit, that the call cannot mean, and
for the order of all. -/
inductive Resembles (name : String) (count : Nat) : FoundType → FoundType → Prop where
  | declared {u : CompilationUnit} {types : List TypeDeclaration} {d d' : TypeDeclaration} :
      List.Forall₂ (Redeclares name count) u.types types → Redeclares name count d d' →
      Resembles name count (.declared u d) (.declared { u with types := types } d')
  | builtin {t : BuiltinType} {methods : List BuiltinMethod} :
      Rearranges (fun m => m.name == name && m.parameters.length == count) t.methods methods →
      Resembles name count (.builtin t) (.builtin { t with methods := methods })

theorem Redeclares.refl (d : TypeDeclaration) : Redeclares name count d d :=
  ⟨d.methods, rfl, .reordered (.refl _)⟩

private theorem map_path_of_redeclares {types types' : List TypeDeclaration}
    (h : List.Forall₂ (Redeclares name count) types types') :
    types.map TypeDeclaration.path = types'.map TypeDeclaration.path := by
  induction h with
  | nil => rfl
  | cons hd _ ih =>
    obtain ⟨methods, rfl, -⟩ := hd
    rw [List.map_cons, List.map_cons, ih]

namespace Resembles

variable {t t' : FoundType}

theorem refl (t : FoundType) : Resembles name count t t := by
  cases t with
  | declared u d => exact .declared (List.forall₂_same.mpr fun d _ => .refl d) (.refl d)
  | builtin t => exact .builtin (.reordered (.refl _))

theorem qualifiedName_eq (h : Resembles name count t t') : t.qualifiedName = t'.qualifiedName := by
  cases h with
  | declared _ hd =>
    obtain ⟨methods, rfl, -⟩ := hd
    rfl
  | builtin _ => rfl

private theorem candidates_perm (h : Resembles name count t t') :
    (t.candidates name count).Perm (t'.candidates name count) := by
  cases h with
  | @declared u types d _ htypes hd =>
    obtain ⟨methods, rfl, hmethods⟩ := hd
    have hsignature : u.methodSignature d =
        { u with types := types }.methodSignature { d with methods := methods } :=
      methodSignature_congr rfl rfl (map_path_of_redeclares htypes) rfl
    rw [FoundType.candidates, FoundType.candidates, hsignature]
    exact hmethods.perm_filter.map _
  | builtin hmethods => exact hmethods.perm_filter.map _

theorem verdict_eq (h : Resembles name arguments.length t t') :
    t.verdict name arguments = t'.verdict name arguments :=
  Verdict.choose_perm h.candidates_perm

/-- Such types can stand for one another where such types are found by the same names. -/
theorem corresponds {find find' : String → Option FoundType}
    (hfind : ∀ n, Option.Rel (Resembles name arguments.length) (find n) (find' n)) :
    Corresponds find find' name arguments (Resembles name arguments.length) where
  qualifiedName_eq := qualifiedName_eq
  verdict_eq := verdict_eq
  parents h := by
    cases h with
    | @declared u types d _ htypes hd =>
      obtain ⟨methods, rfl, -⟩ := hd
      exact forall₂_parents hfind (.refl _)
        (typeCandidates_congr rfl rfl (map_path_of_redeclares htypes)) rfl rfl rfl
    | @builtin t methods _ =>
      rw [FoundType.parents, FoundType.parents]
      cases t.superclass with
      | none => exact .nil
      | some w => exact forall₂_toList (hfind w)

/-- Searches that go through such types one beside the other find the same. -/
theorem run_search {find find' : String → Option FoundType}
    (hfind : ∀ n, Option.Rel (Resembles name arguments.length) (find n) (find' n))
    {examined : List String} {pending pending' : List (FoundType × Nat)}
    (hpending : List.Forall₂ (fun x x' => Resembles name arguments.length x.1 x'.1 ∧ x.2 = x'.2)
      pending pending') :
    (search name arguments examined pending).run find =
      (search name arguments examined pending').run find' :=
  (corresponds hfind).run_search hpending

end Resembles

/-- The search from the one type on examines the methods of the other. -/
def Examines (find : String → Option FoundType) (name : String) (arguments : List (Option String))
    (t₀ t : FoundType) : Prop :=
  ∃ examined distance rest,
    SearchState.Run find name arguments (.start t₀) ⟨examined, (t, distance) :: rest⟩ ∧
      distance ≤ maxDistance ∧ t.qualifiedName ∉ examined

theorem Examines.refl (find : String → Option FoundType) (name : String) (arguments : List (Option String))
    (t : FoundType) : Examines find name arguments t t :=
  ⟨[], 0, [], .refl, Nat.zero_le _, List.not_mem_nil⟩

theorem Examines.run_lookup {find : String → Option FoundType} {t₀ t : FoundType}
    (h : Examines find name arguments t₀ t) (hverdict : t.verdict name arguments ≠ .missing) :
    (lookup t₀ name arguments).run find = t.verdict name arguments := by
  obtain ⟨examined, distance, rest, hrun, hnear, hnew⟩ := h
  rw [run_lookup_eq_outcome, SearchState.outcome_of_run hrun]
  exact SearchState.outcome_of_ends (.decided hnear hnew hverdict)

/-- Which method is found does not depend on the order in which sources declare their methods, nor on
methods that the call cannot mean. Of at least two methods of an examined type that it may mean, the one is
chosen that alone agrees with the most arguments, and the call is ambiguous if none does so alone. -/
theorem overload_choice (name : String) (arguments : List (Option String)) :
    (∀ (find find' : String → Option FoundType) (t t' : FoundType),
      (∀ n, Option.Rel (Resembles name arguments.length) (find n) (find' n)) →
      Resembles name arguments.length t t' →
      (lookup t name arguments).run find = (lookup t' name arguments).run find') ∧
    ∀ (find : String → Option FoundType) (t₀ t : FoundType) (cs : List Candidate),
      Examines find name arguments t₀ t → t.candidates name arguments.length = cs → 2 ≤ cs.length →
      (∀ text, (lookup t₀ name arguments).run find = .signature text ↔
        ∃ i, (Verdict.IsBest arguments cs i ∧ ∀ j, Verdict.IsBest arguments cs j → j = i) ∧
          cs[i].signature = text) ∧
      ((¬∃! i, Verdict.IsBest arguments cs i) → (lookup t₀ name arguments).run find = .ambiguous) := by
  refine ⟨fun find find' t t' hfind ht => ?_, fun find t₀ t cs hexamines hcs htwo => ?_⟩
  · exact Resembles.run_search hfind (.cons ⟨ht, rfl⟩ .nil)
  · have hverdict : t.verdict name arguments = Verdict.choose cs arguments := by
      rw [FoundType.verdict, hcs]
    have hpresent : Verdict.choose cs arguments ≠ .missing := by
      rw [ne_eq, choose_eq_missing_iff]
      rintro rfl
      simp at htwo
    have hlookup : (lookup t₀ name arguments).run find = Verdict.choose cs arguments := by
      rw [hexamines.run_lookup (by rwa [hverdict]), hverdict]
    rw [hlookup]
    refine ⟨fun text => Verdict.choose_eq_signature_iff_best, fun hnone => ?_⟩
    cases hchoose : Verdict.choose cs arguments with
    | missing => exact absurd hchoose hpresent
    | ambiguous => rfl
    | signature text =>
      obtain ⟨i, hi, -⟩ := Verdict.choose_eq_signature_iff_best.mp hchoose
      exact absurd ⟨i, hi⟩ hnone

/-- Of two methods that take one argument, one any number of strings. -/
theorem overload_choice_two :
    let number : Method := ⟨"f", .publicAccess, false, [⟨"n", "int", false⟩], .empty⟩
    let texts : Method := ⟨"f", .publicAccess, false, [⟨"s", "String", true⟩], .empty⟩
    let other : Method := ⟨"g", .publicAccess, false, [], .empty⟩
    let t := loneType .classType "A" none [] [number, texts]
    let t' := loneType .classType "A" none [] [other, texts, number]
    let find : String → Option FoundType := fun _ => none
    (lookup t "f" [some "int"]).run find = (lookup t' "f" [some "int"]).run find ∧
      (lookup t "f" [some "int"]).run find = .signature "A.f(int)" ∧
      (lookup t "f" [none]).run find = .ambiguous := by
  intro number texts other t t' find
  have hfind : ∀ n, Option.Rel (Resembles "f" 1) (find n) (find n) := fun _ => .none
  have hmethods : Rearranges (fun m => m.name == "f" && m.accepts 1) [number, texts] [other, texts, number] :=
    .trans (.reordered (.swap texts number [])) (.added _ rfl)
  have ht : Resembles "f" 1 t t' :=
    .declared (.cons ⟨_, rfl, hmethods⟩ .nil) ⟨_, rfl, hmethods⟩
  refine ⟨(overload_choice "f" [some "int"]).1 find find t t' hfind ht, ?_, ?_⟩
  · have hchoice := (overload_choice "f" [some "int"]).2 find t t _ (.refl ..) rfl (by decide)
    exact (hchoice.1 _).mpr ⟨⟨0, by decide⟩, Verdict.only_best_iff.mpr (by decide +kernel), by decide +kernel⟩
  · have hchoice := (overload_choice "f" [none]).2 find t t _ (.refl ..) rfl (by decide)
    refine hchoice.2 ?_
    rintro ⟨i, -, honly⟩
    simp only [Verdict.IsBest, Candidate.agreements_eq_score] at honly
    have hfirst := honly ⟨0, by decide⟩ (by decide +kernel)
    have hsecond := honly ⟨1, by decide⟩ (by decide +kernel)
    exact absurd (hfirst.trans hsecond.symm) (by decide)

end StructureGraph.Resolution
