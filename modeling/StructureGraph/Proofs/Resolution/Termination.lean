import Mathlib.Logic.Relation
import Mathlib.Order.WellFounded
import StructureGraph.Resolution.Resolver
import StructureGraph.Resolution.Search

namespace StructureGraph

namespace Inquiry

variable {σ τ α β : Type}

/-- The result where each question is put to something that may change with it, and what became of that. -/
def consult (answer : String → σ → Option τ × σ) : Inquiry τ α → σ → α × σ
  | done a, r => (a, r)
  | ask name next, r => (next (answer name r).1).consult answer (answer name r).2

private theorem consult_bind (answer : String → σ → Option τ × σ) (q : Inquiry τ α) (f : α → Inquiry τ β)
    (r : σ) : (q.bind f).consult answer r =
      (f (q.consult answer r).1).consult answer (q.consult answer r).2 := by
  induction q generalizing r with
  | done a => rfl
  | ask name next ih => exact ih _ _

end Inquiry

namespace Resolution

/-- A resolver is consulted with all that it remembers. -/
theorem Resolver.pursue_eq_consult {α : Type} (files : Files) (q : Inquiry FoundType α) (r : Resolver) :
    r.pursue files q = q.consult (Resolver.findType files) r := by
  induction q generalizing r with
  | done a => rfl
  | ask name next ih => exact ih _ _

/-- A type with the types through which a search came to it, the nearest first. -/
structure Trail where
  type : FoundType
  through : List FoundType

namespace Trail

def distance (l : Trail) : Nat := l.through.length

def further (l : Trail) (t : FoundType) : Trail := ⟨t, l.type :: l.through⟩

/-- The names of the types to which some trails lead. -/
def names (ls : List Trail) : List String := ls.map fun l => l.type.qualifiedName

end Trail

section

variable {σ : Type} (answer : String → σ → Option FoundType × σ) (name : String)
  (arguments : List (Option String))

/-- Each type of the trail but the first one was answered when the supertypes of the one before were asked
for. -/
inductive IsTrail (t : FoundType) : Trail → Prop where
  | here : IsTrail t ⟨t, []⟩
  | further {l : Trail} {t' : FoundType} {r : σ} :
      IsTrail t l → t' ∈ (l.type.supertypes.consult answer r).1 → IsTrail t (l.further t')

/-- How far a search has come: the trails to types that were examined and to those that wait, what answers
its questions, and its verdict where it has one. -/
structure Progress (σ : Type) where
  examined : List Trail
  pending : List Trail
  resolver : σ
  verdict : Option Verdict

namespace Progress

def start (t : FoundType) (r : σ) : Progress σ := ⟨[], [⟨t, []⟩], r, none⟩

/-- What a search does next while it has no verdict. -/
inductive Step : Progress σ → Progress σ → Prop where
  | exhausted {examined : List Trail} {r : σ} :
      Step ⟨examined, [], r, none⟩ ⟨examined, [], r, some .missing⟩
  | cutOff {examined rest : List Trail} {l : Trail} {r : σ} :
      maxDistance < l.distance →
      Step ⟨examined, l :: rest, r, none⟩ ⟨examined, rest, r, some .missing⟩
  | skip {examined rest : List Trail} {l : Trail} {r : σ} :
      l.distance ≤ maxDistance → l.type.qualifiedName ∈ Trail.names examined →
      Step ⟨examined, l :: rest, r, none⟩ ⟨examined, rest, r, none⟩
  | decide {examined rest : List Trail} {l : Trail} {r : σ} :
      l.distance ≤ maxDistance → l.type.qualifiedName ∉ Trail.names examined →
      l.type.verdict name arguments ≠ .missing →
      Step ⟨examined, l :: rest, r, none⟩
        ⟨l :: examined, rest, r, some (l.type.verdict name arguments)⟩
  | expand {examined rest : List Trail} {l : Trail} {r : σ} :
      l.distance ≤ maxDistance → l.type.qualifiedName ∉ Trail.names examined →
      l.type.verdict name arguments = .missing →
      Step ⟨examined, l :: rest, r, none⟩
        ⟨l :: examined, (l.type.supertypes.consult answer r).1.map l.further ++ rest,
          (l.type.supertypes.consult answer r).2, none⟩

/-- Some steps lead from the one to the other. -/
abbrev Run : Progress σ → Progress σ → Prop := Relation.ReflTransGen (Step answer name arguments)

/-- What a search finds in the end, and what then became of what answers. -/
def outcome (p : Progress σ) : Verdict × σ :=
  match p.verdict with
  | some v => (v, p.resolver)
  | none =>
    (search name arguments (Trail.names p.examined)
      (p.pending.map fun l => (l.type, l.distance))).consult answer p.resolver

end Progress

end

namespace Progress

variable {σ : Type} {answer : String → σ → Option FoundType × σ} {name : String}
  {arguments : List (Option String)} {t : FoundType} {r : σ} {p p' : Progress σ}

theorem outcome_of_step (h : Step answer name arguments p p') :
    p.outcome answer name arguments = p'.outcome answer name arguments := by
  have hsearch (examined pending : List Trail) (r : σ) :
      outcome answer name arguments ⟨examined, pending, r, none⟩ =
        (search name arguments (Trail.names examined)
          (pending.map fun l => (l.type, l.distance))).consult answer r := rfl
  cases h with
  | exhausted =>
    rw [hsearch, List.map_nil, search]
    rfl
  | cutOff hfar =>
    rw [hsearch, List.map_cons, search, if_pos hfar]
    rfl
  | skip hnear hseen =>
    rw [hsearch, hsearch, List.map_cons, search, if_neg (Nat.not_lt.mpr hnear),
      if_pos (List.contains_iff_mem.mpr hseen)]
  | decide hnear hnew hverdict =>
    rw [hsearch, List.map_cons, search, if_neg (Nat.not_lt.mpr hnear),
      if_neg (mt List.contains_iff_mem.mp hnew)]
    split
    · contradiction
    · rfl
  | @expand examined rest l r hnear hnew hverdict =>
    rw [hsearch, hsearch, List.map_cons, search, if_neg (Nat.not_lt.mpr hnear),
      if_neg (mt List.contains_iff_mem.mp hnew), hverdict]
    simp only [Inquiry.consult_bind, List.map_append, List.map_map]
    rfl

theorem outcome_of_run (h : Run answer name arguments p p') :
    p.outcome answer name arguments = p'.outcome answer name arguments := by
  induction h with
  | refl => rfl
  | tail _ hstep ih => exact ih.trans (outcome_of_step hstep)

/-- A search that has no verdict goes on. -/
theorem exists_step (h : p.verdict = none) : ∃ p', Step answer name arguments p p' := by
  obtain ⟨examined, pending, r, verdict⟩ := p
  obtain rfl : verdict = none := h
  match pending with
  | [] => exact ⟨_, .exhausted⟩
  | l :: rest =>
    by_cases hnear : l.distance ≤ maxDistance
    · by_cases hseen : l.type.qualifiedName ∈ Trail.names examined
      · exact ⟨_, .skip hnear hseen⟩
      · by_cases hverdict : l.type.verdict name arguments = .missing
        · exact ⟨_, .expand hnear hseen hverdict⟩
        · exact ⟨_, .decide hnear hseen hverdict⟩
    · exact ⟨_, .cutOff (Nat.not_le.mp hnear)⟩

/-- A step leads to a verdict, or brings the waiting distances forward. -/
theorem follows_of_step (h : Step answer name arguments p p') : p.verdict = none ∧
    (p'.verdict ≠ none ∨ Follows (p'.pending.map Trail.distance) (p.pending.map Trail.distance)) := by
  cases h with
  | exhausted => exact ⟨rfl, .inl (Option.some_ne_none _)⟩
  | cutOff => exact ⟨rfl, .inl (Option.some_ne_none _)⟩
  | decide => exact ⟨rfl, .inl (Option.some_ne_none _)⟩
  | @skip _ rest l _ hnear _ => exact ⟨rfl, .inr ⟨l.distance, 0, rest.map Trail.distance, rfl, hnear, rfl⟩⟩
  | @expand _ rest l r hnear _ _ =>
    refine ⟨rfl, .inr ⟨l.distance, (l.type.supertypes.consult answer r).1.length,
      rest.map Trail.distance, rfl, hnear, ?_⟩⟩
    have hdistance : Trail.distance ∘ l.further = fun _ => l.distance + 1 := rfl
    rw [List.map_append, List.map_map, hdistance, List.map_const']

private theorem acc_of_verdict (h : p.verdict ≠ none) : Acc (flip (Step answer name arguments)) p :=
  .intro p fun _ hstep => absurd (follows_of_step hstep).1 h

private theorem wellFounded_step (answer : String → σ → Option FoundType × σ) (name : String)
    (arguments : List (Option String)) : WellFounded (flip (Step answer name arguments)) := by
  refine ⟨fun p => ?_⟩
  induction hpending : p.pending.map Trail.distance using wellFounded_follows.induction
    generalizing p with
  | h distances ih =>
    subst hpending
    refine .intro p fun p' hstep => ?_
    rcases (follows_of_step hstep).2 with hverdict | hfollows
    · exact acc_of_verdict hverdict
    · exact ih _ hfollows p' rfl

theorem exists_end (answer : String → σ → Option FoundType × σ) (name : String)
    (arguments : List (Option String)) (p : Progress σ) :
    ∃ p' v, Run answer name arguments p p' ∧ p'.verdict = some v := by
  induction p using (wellFounded_step answer name arguments).induction with
  | h p ih =>
    cases hverdict : p.verdict with
    | some v => exact ⟨p, v, .refl, hverdict⟩
    | none =>
      obtain ⟨p₁, hstep⟩ := exists_step hverdict
      obtain ⟨p', v, hrun, hv⟩ := ih p₁ hstep
      exact ⟨p', v, .head hstep hrun, hv⟩

/-- No two types of one name were examined, and trails within the limit lead to all of them. -/
structure IsBounded (answer : String → σ → Option FoundType × σ) (t : FoundType) (p : Progress σ) :
    Prop where
  nodup : (Trail.names p.examined).Nodup
  near : ∀ l ∈ p.examined, l.distance ≤ maxDistance
  trails : ∀ l ∈ p.examined ++ p.pending, IsTrail answer t l

private theorem isBounded_start (t : FoundType) (r : σ) : (start t r).IsBounded answer t where
  nodup := .nil
  near _ hl := absurd hl List.not_mem_nil
  trails l hl := by
    rw [List.mem_singleton.mp hl]
    exact .here

private theorem IsBounded.examine {examined rest : List Trail} {l : Trail} {r r' : σ}
    {v v' : Option Verdict}
    {found : List Trail} (h : IsBounded answer t ⟨examined, l :: rest, r, v⟩)
    (hnear : l.distance ≤ maxDistance) (hnew : l.type.qualifiedName ∉ Trail.names examined)
    (hfound : ∀ l' ∈ found, IsTrail answer t l') :
    IsBounded answer t ⟨l :: examined, found ++ rest, r', v'⟩ where
  nodup := List.nodup_cons.mpr ⟨hnew, h.nodup⟩
  near := List.forall_mem_cons.mpr ⟨hnear, h.near⟩
  trails l' hl' := by
    simp only [List.cons_append, List.mem_cons, List.mem_append] at hl'
    rcases hl' with rfl | hl' | hl' | hl'
    · exact h.trails l' (by simp)
    · exact h.trails l' (by simp [hl'])
    · exact hfound l' hl'
    · exact h.trails l' (by simp [hl'])

theorem IsBounded.step (h : p.IsBounded answer t) (hstep : Step answer name arguments p p') :
    p'.IsBounded answer t := by
  cases hstep with
  | exhausted => exact ⟨h.nodup, h.near, h.trails⟩
  | cutOff => exact ⟨h.nodup, h.near, fun l hl => h.trails l (by grind)⟩
  | skip => exact ⟨h.nodup, h.near, fun l hl => h.trails l (by grind)⟩
  | decide hnear hnew =>
    have hnone : ∀ l ∈ ([] : List Trail), IsTrail answer t l := nofun
    exact h.examine hnear hnew hnone
  | @expand _ _ l _ hnear hnew =>
    refine h.examine hnear hnew fun l' hl' => ?_
    obtain ⟨t', ht', rfl⟩ := List.mem_map.mp hl'
    exact .further (h.trails l (by simp)) ht'

theorem IsBounded.run (h : p.IsBounded answer t) (hrun : Run answer name arguments p p') :
    p'.IsBounded answer t := by
  induction hrun with
  | refl => exact h
  | tail _ hstep ih => exact ih.step hstep

end Progress

/-- Whatever answers its questions, and whatever types the answers name, a search comes to its verdict after
finitely many steps and cannot go on for ever. The types that it examines on its way have different names,
and each is at the end of a trail of supertypes that is no longer than the limit. -/
theorem lookup_ends {σ : Type} (answer : String → σ → Option FoundType × σ) (r : σ) (t : FoundType)
    (name : String) (arguments : List (Option String)) :
    (∃ p v, Progress.Run answer name arguments (.start t r) p ∧ p.verdict = some v ∧
      (lookup t name arguments).consult answer r = (v, p.resolver)) ∧
    (¬ ∃ f : Nat → Progress σ, ∀ n, Progress.Step answer name arguments (f n) (f (n + 1))) ∧
    ∀ p, Progress.Run answer name arguments (.start t r) p →
      (Trail.names p.examined).Nodup ∧
      ∀ l ∈ p.examined, IsTrail answer t l ∧ l.through.length ≤ 32 := by
  refine ⟨?_, fun ⟨f, hf⟩ => ?_, fun p hrun => ?_⟩
  · obtain ⟨p, v, hrun, hv⟩ := Progress.exists_end answer name arguments (.start t r)
    have houtcome : (lookup t name arguments).consult answer r = p.outcome answer name arguments :=
      Progress.outcome_of_run hrun
    rw [Progress.outcome, hv] at houtcome
    exact ⟨p, v, hrun, hv, houtcome⟩
  · have hdescending := wellFounded_iff_isEmpty_descending_chain.mp
      (Progress.wellFounded_step answer name arguments)
    exact hdescending.false ⟨f, hf⟩
  · have hbounded := (Progress.isBounded_start t r).run hrun
    exact ⟨hbounded.nodup, fun l hl =>
      ⟨hbounded.trails l (List.mem_append_left _ hl), hbounded.near l hl⟩⟩

end Resolution

end StructureGraph
