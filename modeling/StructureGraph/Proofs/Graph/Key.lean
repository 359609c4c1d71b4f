import Mathlib.Data.List.TakeWhile
import Mathlib.Data.Prod.Lex
import Mathlib.Data.String.Basic
import StructureGraph.Graph.Key
import StructureGraph.Proofs.Text.Segments

namespace StructureGraph

open StructureGraph.Text (isBlank trim)

private theorem forall_mem_dropWhile_iff {α : Type} {p : α → Bool} {l : List α} :
    (∀ a ∈ l.dropWhile p, p a) ↔ ∀ a ∈ l, p a := by
  induction l with
  | nil => rfl
  | cons b l ih =>
    by_cases hb : p b
    · simp [hb, ih]
    · simp [hb]

/-- Nothing is left of a text just in case it is blank. -/
theorem Text.trim_eq_empty_iff {s : String} : trim s = "" ↔ ∀ c ∈ s.toList, isBlank c := by
  simp [trim, trimEnd, trimStart, List.dropWhile_eq_nil_iff, forall_mem_dropWhile_iff]

namespace Graph

theorem NodeKind.rank_injective {a b : NodeKind} (h : a.rank = b.rank) : a = b := by
  cases a <;> cases b <;> simp_all [NodeKind.rank]

theorem RelationKind.rank_injective {a b : RelationKind} (h : a.rank = b.rank) : a = b := by
  cases a <;> cases b <;> simp_all [RelationKind.rank]

namespace NodeKey

/-- What keys are ordered by: the number of the kind, then the text. -/
def orderKey (k : NodeKey) : ℕ ×ₗ String := toLex (k.kind.rank, k.text)

theorem orderKey_injective : Function.Injective orderKey := by
  intro a b h
  obtain ⟨kind, text⟩ := a
  obtain ⟨kind', text'⟩ := b
  obtain ⟨hrank, htext⟩ : kind.rank = kind'.rank ∧ text = text' := Prod.mk.inj (toLex.injective h)
  rw [NodeKind.rank_injective hrank, htext]

theorem lt_iff (a b : NodeKey) : a < b ↔ a.orderKey < b.orderKey := by
  have hlt : a < b ↔ a.kind.rank < b.kind.rank ∨ a.kind = b.kind ∧ a.text < b.text := Iff.rfl
  have hkind : a.kind = b.kind ↔ a.kind.rank = b.kind.rank := ⟨congrArg _, NodeKind.rank_injective⟩
  rw [hlt, hkind, orderKey, orderKey, Prod.Lex.toLex_lt_toLex]

theorem le_iff_orderKey (a b : NodeKey) : a.le b ↔ a.orderKey ≤ b.orderKey := by
  rw [le, Bool.not_eq_true', decide_eq_false_iff_not, lt_iff, not_lt]

theorem le_iff (a b : NodeKey) :
    a.le b ↔ a.kind.rank < b.kind.rank ∨ a.kind = b.kind ∧ a.text ≤ b.text := by
  have hkind : a.kind = b.kind ↔ a.kind.rank = b.kind.rank := ⟨congrArg _, NodeKind.rank_injective⟩
  rw [le_iff_orderKey, hkind, orderKey, orderKey, Prod.Lex.toLex_le_toLex]

theorem le_trans (a b c : NodeKey) (hab : a.le b) (hbc : b.le c) : a.le c := by
  rw [le_iff_orderKey] at *
  exact hab.trans hbc

theorem le_total (a b : NodeKey) : a.le b || b.le a := by
  rw [Bool.or_eq_true, le_iff_orderKey, le_iff_orderKey]
  exact Std.le_total

theorem lt_of_le_of_ne {a b : NodeKey} (hle : a.le b) (hne : a ≠ b) : a < b := by
  rw [lt_iff, lt_iff_le_and_ne]
  exact ⟨(le_iff_orderKey a b).mp hle, orderKey_injective.ne hne⟩

end NodeKey

theorem segments_joinParts {parts : List String} (hne : parts ≠ [])
    (h : ∀ s ∈ parts, separator ∉ s.toList) : Text.segments separator (joinParts parts) = parts :=
  Text.segments_intercalate hne h

/-- The segments of a key are its parts just in case the separator is in none of them. -/
theorem segments_joinParts_eq_iff {parts : List String} (hne : parts ≠ []) :
    Text.segments separator (joinParts parts) = parts ↔ ∀ s ∈ parts, separator ∉ s.toList := by
  constructor
  · intro h s hs
    rw [← h] at hs
    exact Text.not_mem_of_mem_segments hs
  · exact segments_joinParts hne

/-- Parts without separators are told from their key among all lists of as many parts. -/
theorem eq_of_joinParts_eq {ps qs : List String} (hlength : ps.length = qs.length)
    (hqs : ∀ s ∈ qs, separator ∉ s.toList) (h : joinParts ps = joinParts qs) : ps = qs := by
  by_cases hnil : qs = []
  · rw [hnil, List.length_nil, List.length_eq_zero_iff] at hlength
    rw [hlength, hnil]
  · have hps : ps ≠ [] := fun hps => hnil (by simpa [hps, eq_comm] using hlength)
    refine @Text.eq_of_flatMap_segments separator ps qs hlength ?_
    rw [← Text.segments_intercalate_eq_flatMap hps, ← joinParts, h, segments_joinParts hnil hqs]

namespace NodeKey

/-- A key is valid if something stands before its first separator. -/
theorem isValid_iff {k : NodeKey} :
    k.isValid ↔ ∃ c ∈ k.text.toList.takeWhile (· != separator), isBlank c = false := by
  rw [isValid, parts, Text.headD_segments, bne_iff_ne, ne_eq, Text.trim_eq_empty_iff]
  simp

theorem isValid_append {kind kind' : NodeKind} {s : String} (h : isValid ⟨kind, s⟩) (t : String) :
    isValid ⟨kind', s ++ t⟩ := by
  obtain ⟨c, hc, hblank⟩ := isValid_iff.mp h
  refine isValid_iff.mpr ⟨c, ?_, hblank⟩
  rw [String.toList_append, List.takeWhile_append]
  split
  · exact List.mem_append_left _ ((List.takeWhile_prefix _).mem hc)
  · exact hc

end NodeKey

end Graph

end StructureGraph
