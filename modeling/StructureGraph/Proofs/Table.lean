import Mathlib.Data.List.Nodup
import StructureGraph.Table

namespace StructureGraph.Table

variable {α : Type} {t t' : Table α}

private theorem nodup_names (t : Table α) : t.names.Nodup := by
  rw [names, List.Nodup, List.pairwise_map]
  refine t.sorted.imp ?_
  intro a b hlt heq
  exact String.lt_irrefl b.1 (heq ▸ hlt)

theorem nodup_entries (t : Table α) : t.entries.Nodup := t.nodup_names.of_map _

/-- A name stands for the value of its entry. -/
theorem mem_entries_iff {name : String} {value : α} :
    (name, value) ∈ t.entries ↔ t.get? name = some value := by
  rw [get?, Option.map_eq_some_iff]
  constructor
  · intro hmem
    have hsome : (t.entries.find? (·.1 == name)).isSome := by
      rw [List.find?_isSome]
      exact ⟨(name, value), hmem, beq_self_eq_true name⟩
    obtain ⟨e, he⟩ := Option.isSome_iff_exists.mp hsome
    have hname : e.1 = name := by simpa using List.find?_some he
    have heq : e = (name, value) :=
      List.inj_on_of_nodup_map t.nodup_names (List.mem_of_find?_eq_some he) hmem hname
    exact ⟨e, he, by rw [heq]⟩
  · rintro ⟨e, he, rfl⟩
    have hname : e.1 = name := by simpa using List.find?_some he
    exact hname ▸ List.mem_of_find?_eq_some he

theorem eq_of_get? (h : ∀ name, t.get? name = t'.get? name) : t = t' := by
  have hmem : ∀ e, e ∈ t.entries ↔ e ∈ t'.entries := by
    rintro ⟨name, value⟩
    rw [mem_entries_iff, mem_entries_iff, h]
  have hperm : t.entries.Perm t'.entries :=
    (List.perm_ext_iff_of_nodup t.nodup_entries t'.nodup_entries).mpr hmem
  have hentries : t.entries = t'.entries :=
    hperm.eq_of_pairwise (fun a b _ _ hab hba => (String.lt_asymm hab hba).elim) t.sorted t'.sorted
  cases t
  cases t'
  congr

end StructureGraph.Table
