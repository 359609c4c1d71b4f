
namespace StructureGraph

structure Table (α : Type) where
  entries : List (String × α)
  sorted : entries.Pairwise (·.1 < ·.1)
  deriving DecidableEq, Repr

namespace Table

variable {α : Type}

def empty : Table α := ⟨[], .nil⟩

instance : Inhabited (Table α) := ⟨empty⟩

/-- Put an entry into its place, where it replaces one of the same name. -/
def insertEntry (name : String) (value : α) : List (String × α) → List (String × α)
  | [] => [(name, value)]
  | e :: es =>
    if name < e.1 then (name, value) :: e :: es
    else if name = e.1 then (name, value) :: es
    else e :: insertEntry name value es

theorem forall_insertEntry {p : String → Prop} {name : String} {value : α} :
    ∀ {es : List (String × α)}, p name → (∀ e ∈ es, p e.1) →
      ∀ e ∈ insertEntry name value es, p e.1
  | [], hn, _, e, he => by
    simp only [insertEntry, List.mem_singleton] at he
    subst he
    exact hn
  | e :: es, hn, hes, d, hd => by
    have hrest : ∀ d ∈ es, p d.1 := fun d hd => hes d (by simp [hd])
    rw [insertEntry] at hd
    split at hd
    · rcases List.mem_cons.mp hd with rfl | hd
      · exact hn
      · exact hes d hd
    · split at hd
      · rcases List.mem_cons.mp hd with rfl | hd
        · exact hn
        · exact hrest d hd
      · rcases List.mem_cons.mp hd with rfl | hd
        · exact hes d (by simp)
        · exact forall_insertEntry hn hrest d hd

theorem sorted_insertEntry (name : String) (value : α) :
    ∀ {es : List (String × α)}, es.Pairwise (·.1 < ·.1) →
      (insertEntry name value es).Pairwise (·.1 < ·.1)
  | [], _ => by simp [insertEntry]
  | e :: es, h => by
    obtain ⟨he, hes⟩ := List.pairwise_cons.mp h
    rw [insertEntry]
    split
    · rename_i hlt
      refine List.pairwise_cons.mpr ⟨fun d hd => ?_, h⟩
      rcases List.mem_cons.mp hd with rfl | hd
      · exact hlt
      · exact String.lt_trans hlt (he d hd)
    · rename_i hlt
      split
      · rename_i heq
        exact List.pairwise_cons.mpr ⟨fun d hd => heq ▸ he d hd, hes⟩
      · rename_i hne
        have hgt : e.1 < name :=
          Std.lt_of_le_of_ne (String.not_lt.mp hlt) (Ne.symm hne)
        exact List.pairwise_cons.mpr
          ⟨forall_insertEntry hgt he, sorted_insertEntry name value hes⟩

def insert (t : Table α) (name : String) (value : α) : Table α :=
  ⟨insertEntry name value t.entries, sorted_insertEntry name value t.sorted⟩

/-- Of several entries of one name the last counts. -/
def ofList (es : List (String × α)) : Table α :=
  es.foldl (fun t e => t.insert e.1 e.2) empty

theorem insertEntry_of_forall_lt {name : String} {value : α} :
    ∀ {es : List (String × α)}, (∀ e ∈ es, e.1 < name) →
      insertEntry name value es = es ++ [(name, value)]
  | [], _ => rfl
  | e :: es, h => by
    have he : e.1 < name := h e (by simp)
    have hrest : ∀ d ∈ es, d.1 < name := fun d hd => h d (by simp [hd])
    have hne : name ≠ e.1 := fun heq => String.lt_irrefl _ (heq ▸ he)
    rw [insertEntry, if_neg (String.lt_asymm he), if_neg hne,
      insertEntry_of_forall_lt hrest, List.cons_append]

theorem entries_foldl_insert :
    ∀ {es : List (String × α)} {t : Table α}, (t.entries ++ es).Pairwise (·.1 < ·.1) →
      (es.foldl (fun t e => t.insert e.1 e.2) t).entries = t.entries ++ es
  | [], t, _ => by simp
  | e :: es, t, h => by
    have hlast : (t.insert e.1 e.2).entries = t.entries ++ [e] :=
      insertEntry_of_forall_lt fun d hd => (List.pairwise_append.mp h).2.2 d hd e (by simp)
    rw [List.foldl_cons, entries_foldl_insert (by simpa [hlast] using h), hlast, List.append_assoc,
      List.singleton_append]

/-- A table is made anew from its entries. -/
theorem ofList_entries (t : Table α) : ofList t.entries = t := by
  obtain ⟨es, h⟩ := t
  have hes : (ofList es).entries = es := entries_foldl_insert (t := empty) h
  cases ht : ofList es
  simp_all

def get? (t : Table α) (name : String) : Option α :=
  (t.entries.find? (·.1 == name)).map Prod.snd

@[simp] theorem get?_empty (name : String) : (empty : Table α).get? name = none := rfl

theorem find?_insertEntry_self (name : String) (value : α) (es : List (String × α)) :
    (insertEntry name value es).find? (·.1 == name) = some (name, value) := by
  induction es with
  | nil => simp [insertEntry]
  | cons e es ih =>
    rw [insertEntry]
    split
    · simp
    · split
      · simp
      · rename_i hne
        rw [List.find?_cons_of_neg (by simpa using Ne.symm hne), ih]

theorem find?_insertEntry_of_ne {name other : String} (h : name ≠ other) (value : α)
    (es : List (String × α)) :
    (insertEntry name value es).find? (·.1 == other) = es.find? (·.1 == other) := by
  induction es with
  | nil => simp [insertEntry, h]
  | cons e es ih =>
    rw [insertEntry]
    split
    · simp [h]
    · split
      · rename_i heq
        simp [h, ← heq]
      · rw [List.find?_cons, List.find?_cons, ih]

/-- What a name stands for after an entry was put in. -/
theorem get?_insert (t : Table α) (name other : String) (value : α) :
    (t.insert name value).get? other = if name = other then some value else t.get? other := by
  by_cases h : name = other
  · subst h
    simp [get?, insert, find?_insertEntry_self]
  · simp [get?, insert, find?_insertEntry_of_ne h, h]

/-- Keep some of the entries. -/
def filter (t : Table α) (p : String × α → Bool) : Table α :=
  ⟨t.entries.filter p, t.sorted.sublist List.filter_sublist⟩

def names (t : Table α) : List String := t.entries.map Prod.fst

theorem mem_names_iff {t : Table α} {name : String} : name ∈ t.names ↔ (t.get? name).isSome := by
  rw [get?, Option.isSome_map, List.find?_isSome, names, List.mem_map]
  simp only [beq_iff_eq]

end Table

end StructureGraph
