import StructureGraph.Proofs.Table
import StructureGraph.Resolution.Significance

namespace StructureGraph.Resolution

variable {c c' : CallCounts} {keep keep' : Nat → Nat} {name : String} {e e' : String × Nat}

/-- More calls mean the first method, or as many do and its signature is lesser. -/
def Outranks (e e' : String × Nat) : Prop := e'.2 < e.2 ∨ (e.2 = e'.2 ∧ e.1 < e'.1)

private theorem rankLe_iff : rankLe e e' = true ↔ e'.2 < e.2 ∨ (e.2 = e'.2 ∧ e.1 ≤ e'.1) := by
  simp [rankLe]

private theorem rankLe_trans (a b d : String × Nat) (hab : rankLe a b = true) (hbd : rankLe b d = true) :
    rankLe a d = true := by
  rw [rankLe_iff] at *
  rcases hab with hab | ⟨hab, hab'⟩
  · rcases hbd with hbd | ⟨hbd, -⟩
    · exact .inl (Nat.lt_trans hbd hab)
    · exact .inl (hbd ▸ hab)
  · rcases hbd with hbd | ⟨hbd, hbd'⟩
    · exact .inl (hab ▸ hbd)
    · exact .inr ⟨hab.trans hbd, String.le_trans hab' hbd'⟩

private theorem rankLe_total (a b : String × Nat) : (rankLe a b || rankLe b a) = true := by
  rw [Bool.or_eq_true, rankLe_iff, rankLe_iff]
  rcases Nat.lt_trichotomy a.2 b.2 with hlt | heq | hlt
  · exact .inr (.inl hlt)
  · exact (String.le_total a.1 b.1).imp (fun hle => .inr ⟨heq, hle⟩) fun hle => .inr ⟨heq.symm, hle⟩
  · exact .inl (.inl hlt)

/-- Of two methods one outranks the other. -/
theorem outranks_of_rankLe (h : rankLe e e' = true) (hne : e ≠ e') : Outranks e e' := by
  rcases rankLe_iff.mp h with hlt | ⟨heq, hle⟩
  · exact .inl hlt
  · exact .inr ⟨heq, Std.lt_of_le_of_ne hle fun hname => hne (Prod.ext hname heq)⟩

private theorem mem_methodsOf : e ∈ methodsOf c name ↔ e ∈ c.entries ∧ declaringClass e.1 = name := by
  rw [methodsOf, List.mem_filter, beq_iff_eq]

private theorem nodup_methodsOf (c : CallCounts) (name : String) : (methodsOf c name).Nodup :=
  c.nodup_entries.filter _

/-- The methods of a class, those of highest rank first. -/
def ranked (c : CallCounts) (name : String) : List (String × Nat) :=
  (methodsOf c name).mergeSort rankLe

private theorem ranked_perm (c : CallCounts) (name : String) : (ranked c name).Perm (methodsOf c name) :=
  List.mergeSort_perm _ _

private theorem nodup_ranked (c : CallCounts) (name : String) : (ranked c name).Nodup :=
  (ranked_perm c name).nodup_iff.mpr (nodup_methodsOf c name)

private theorem ranked_pairwise (c : CallCounts) (name : String) : (ranked c name).Pairwise Outranks := by
  have hsorted : (ranked c name).Pairwise fun a b => rankLe a b = true :=
    List.pairwise_mergeSort rankLe_trans rankLe_total _
  exact (hsorted.and (nodup_ranked c name)).imp fun h => outranks_of_rankLe h.1 h.2

private theorem keptOf_eq (c : CallCounts) (keep : Nat → Nat) (name : String) :
    keptOf c keep name = (ranked c name).take (keep (methodsOf c name).length) := rfl

private theorem mem_methodsOf_of_mem_keptOf (h : e ∈ keptOf c keep name) : e ∈ methodsOf c name :=
  (ranked_perm c name).mem_iff.mp (List.mem_of_mem_take h)

/-- A method that is kept outranks each one of its class that is not. -/
theorem outranks_of_mem_keptOf (he : e ∈ keptOf c keep name) (he' : e' ∈ methodsOf c name)
    (hdropped : e' ∉ keptOf c keep name) : Outranks e e' := by
  let count := keep (methodsOf c name).length
  have hsplit := List.take_append_drop count (ranked c name)
  have hlater : e' ∈ (ranked c name).drop count := by
    have hmem : e' ∈ ranked c name := (ranked_perm c name).mem_iff.mpr he'
    rw [← hsplit] at hmem
    exact (List.mem_append.mp hmem).resolve_left hdropped
  have hpairwise := ranked_pairwise c name
  rw [← hsplit] at hpairwise
  exact (List.pairwise_append.mp hpairwise).2.2 e he e' hlater

/-- Where more methods are kept, none is lost. -/
theorem keptOf_subset (h : ∀ total, keep total ≤ keep' total) :
    keptOf c keep name ⊆ keptOf c keep' name :=
  (List.take_sublist_take_left (h _)).subset

private theorem length_keptOf (h : keep (methodsOf c name).length ≤ (methodsOf c name).length) :
    (keptOf c keep name).length = keep (methodsOf c name).length := by
  rw [keptOf_eq, List.length_take, (ranked_perm c name).length_eq, Nat.min_eq_left h]

private theorem mem_keepRanked :
    e ∈ (keepRanked c keep).entries ↔ e ∈ keptOf c keep (declaringClass e.1) := by
  rw [keepRanked, Table.filter, List.mem_filter, List.contains_iff_mem]
  exact and_iff_right_of_imp fun h => (mem_methodsOf.mp (mem_methodsOf_of_mem_keptOf h)).1

/-- What is left of a class depends only on the class. -/
theorem methodsOf_keepRanked (c : CallCounts) (keep : Nat → Nat) (name : String) :
    methodsOf (keepRanked c keep) name =
      (methodsOf c name).filter fun e => (keptOf c keep name).contains e := by
  simp only [methodsOf, keepRanked, Table.filter, List.filter_filter]
  refine List.filter_congr fun e _ => ?_
  by_cases hname : declaringClass e.1 = name
  · rw [hname, Bool.and_comm]
  · have hfalse : (declaringClass e.1 == name) = false := beq_false_of_ne hname
    rw [hfalse, Bool.false_and, Bool.and_false]

private theorem methodsOf_keepRanked_perm (c : CallCounts) (keep : Nat → Nat) (name : String) :
    (methodsOf (keepRanked c keep) name).Perm (keptOf c keep name) := by
  have hkept : (keptOf c keep name).Nodup := (nodup_ranked c name).sublist (List.take_sublist _ _)
  refine (List.perm_ext_iff_of_nodup (nodup_methodsOf _ name) hkept).mpr fun e => ?_
  rw [methodsOf_keepRanked, List.mem_filter, List.contains_iff_mem]
  exact and_iff_right_of_imp mem_methodsOf_of_mem_keptOf

private theorem keptOf_congr (h : methodsOf c name = methodsOf c' name) :
    keptOf c keep name = keptOf c' keep name := by
  rw [keptOf, keptOf, h]

private theorem one_le_keepCount (total : Nat) (dropped : Float) : 1 ≤ keepCount total dropped :=
  Nat.le_max_left _ _

private theorem keepCount_le {total : Nat} (h : 0 < total) (dropped : Float) :
    keepCount total dropped ≤ total := by
  unfold keepCount keepCountIn clampKept
  omega

private theorem compare_then_swap (i j : Int) (m n : Nat) :
    (compare j i).then (compare n m) = ((compare i j).then (compare m n)).swap := by
  rw [Ordering.swap_then, Int.compare_swap, Nat.compare_swap]

private theorem compare_swap (a b : Float.Model.UnpackedFloat) :
    b.compare a = (a.compare b).map Ordering.swap := by
  cases a with
  | notANumber => cases b <;> rfl
  | infinity s =>
    cases b with
    | infinity s' => cases s <;> cases s' <;> rfl
    | _ => cases s <;> rfl
  | zero s =>
    cases b with
    | finite s' m e hm => cases s' <;> rfl
    | infinity s' => cases s' <;> rfl
    | _ => rfl
  | finite s m e hm =>
    cases b with
    | finite s' m' e' hm' =>
      cases s <;> cases s'
      case negative.negative => exact congrArg (some ·.swap) (compare_then_swap e e' m m')
      case positive.positive => exact congrArg some (compare_then_swap e e' m m')
      all_goals rfl
    | infinity s' => cases s <;> cases s' <;> rfl
    | _ => cases s <;> rfl

/-- Numbers are compared by their unpacked forms, where no order holds in both directions. -/
theorem not_le_of_lt {x y : Float} (h : x < y) : ¬ y ≤ x := by
  intro hle
  have hlt : (x.toModel.unpack.compare y.toModel.unpack == some Ordering.lt) = true :=
    of_decide_eq_true (p := x.toModel < y.toModel) h
  have hle : (y.toModel.unpack.compare x.toModel.unpack).any (·.isLE) = true :=
    of_decide_eq_true (p := y.toModel ≤ x.toModel) hle
  rw [compare_swap x.toModel.unpack, beq_iff_eq.mp hlt] at hle
  cases hle

private theorem significant_of_pos {dropped : Share} (h : 0.0 < dropped.value) (c : CallCounts) :
    significant dropped c = keepRanked c (keepCount · dropped.value) :=
  if_neg (not_le_of_lt h)

private theorem mem_of_mem_significant {dropped : Share} (h : e ∈ (significant dropped c).entries) :
    e ∈ c.entries := by
  rw [significant] at h
  split at h
  · exact h
  · exact (mem_methodsOf.mp (mem_methodsOf_of_mem_keptOf (mem_keepRanked.mp h))).1

/-- A share that leaves no more of any class than another one leaves no method that the other does not. -/
theorem mem_significant_of_le {dropped other : Share} (hpos : 0.0 < dropped.value)
    (hle : ∀ total, keepCount total dropped.value ≤ keepCount total other.value)
    (h : e ∈ (significant dropped c).entries) : e ∈ (significant other c).entries := by
  have hmem := mem_of_mem_significant h
  rw [significant_of_pos hpos, mem_keepRanked] at h
  rw [significant]
  split
  · exact hmem
  · exact mem_keepRanked.mpr (keptOf_subset hle h)

/-- Where nothing is dropped, all counts stay. Where something is, the counts that are left are among
those given, and of each class there are as many as the share leaves, at least one and at most all.
Each of them outranks all that were dropped from the same class. What is left of a class depends on
that class only, and a share that leaves no more of any class than another one leaves no others. -/
theorem significant_keeps_first (dropped : Share) (c : CallCounts) :
    (dropped.value ≤ 0.0 → significant dropped c = c) ∧
    (0.0 < dropped.value →
      let kept := significant dropped c
      (∀ e ∈ kept.entries, e ∈ c.entries) ∧
      (∀ name, methodsOf c name ≠ [] →
        let total := (methodsOf c name).length
        (methodsOf kept name).length = keepCount total dropped.value ∧
          1 ≤ keepCount total dropped.value ∧ keepCount total dropped.value ≤ total) ∧
      (∀ e ∈ kept.entries, ∀ e' ∈ c.entries, e' ∉ kept.entries →
        declaringClass e.1 = declaringClass e'.1 → Outranks e e') ∧
      (∀ c' name, methodsOf c' name = methodsOf c name →
        methodsOf (significant dropped c') name = methodsOf kept name) ∧
      ∀ other : Share, (∀ total, keepCount total dropped.value ≤ keepCount total other.value) →
        ∀ e ∈ kept.entries, e ∈ (significant other c).entries) := by
  refine ⟨fun hzero => if_pos hzero, fun hpos => ?_⟩
  intro kept
  have hkept : ∀ c, significant dropped c = keepRanked c (keepCount · dropped.value) :=
    significant_of_pos hpos
  refine ⟨fun e => mem_of_mem_significant, fun name hname => ?_, ?_, ?_, ?_⟩
  · have htotal : 0 < (methodsOf c name).length := List.length_pos_iff.mpr hname
    have hle := keepCount_le htotal dropped.value
    refine ⟨?_, one_le_keepCount _ _, hle⟩
    calc (methodsOf kept name).length
        = (keptOf c (keepCount · dropped.value) name).length := by
          simp only [kept, hkept]
          exact (methodsOf_keepRanked_perm c _ name).length_eq
      _ = keepCount (methodsOf c name).length dropped.value := length_keptOf hle
  · intro e he e' he' hdropped hclass
    simp only [kept, hkept, mem_keepRanked] at he hdropped
    rw [← hclass] at hdropped
    exact outranks_of_mem_keptOf he (mem_methodsOf.mpr ⟨he', hclass.symm⟩) hdropped
  · intro c' name hmethods
    simp only [kept, hkept, methodsOf_keepRanked, hmethods, keptOf_congr hmethods]
  · intro other hle e
    exact mem_significant_of_le hpos hle

/-- Half of two classes is dropped, of which one has two methods that are called as often. -/
theorem significant_keeps_first_half :
    let half : Share := ⟨0.5, by decide +kernel, by decide +kernel⟩
    let c : CallCounts := .ofList [("p.C.z()", 2), ("p.C.a()", 2), ("p.D.m()", 1)]
    let kept := significant half c
    0.0 < half.value ∧ (methodsOf kept "p.C").length = keepCount 2 0.5 ∧
      (methodsOf kept "p.D").length = 1 ∧
      ∀ e ∈ kept.entries, ∀ e' ∈ c.entries, e' ∉ kept.entries →
        declaringClass e.1 = declaringClass e'.1 → Outranks e e' := by
  intro half c kept
  have hpos : 0.0 < half.value := by decide +kernel
  obtain ⟨-, hcount, houtranks, -⟩ := (significant_keeps_first half c).2 hpos
  have htwo : methodsOf c "p.C" = [("p.C.a()", 2), ("p.C.z()", 2)] := by decide +kernel
  have hone : methodsOf c "p.D" = [("p.D.m()", 1)] := by decide +kernel
  refine ⟨hpos, ?_, ?_, houtranks⟩
  · have hlength := (hcount "p.C" (by simp [htwo])).1
    rwa [htwo] at hlength
  · obtain ⟨hlength, hpositive, hle⟩ := hcount "p.D" (by simp [hone])
    rw [hone] at hlength hpositive hle
    exact hlength.trans (Nat.le_antisymm hle hpositive)

end StructureGraph.Resolution
