import StructureGraph.Files.Basic

namespace StructureGraph.Files

namespace Entry

theorem child?_directory (es : List (String × Entry)) (m : String) :
    (directory es).child? m = (es.find? (·.1 == m)).map Prod.snd := rfl

private theorem child?_putChild (n m : String) (new : Entry) (es : List (String × Entry)) :
    (directory (putChild n new es)).child? m =
      if m = n then some new else (directory es).child? m := by
  simp only [child?_directory]
  induction es with
  | nil =>
    by_cases h : m = n
    · simp [putChild, h]
    · simp [putChild, h, Ne.symm h]
  | cons e es ih =>
    rw [putChild]
    split
    · rename_i he
      by_cases h : m = n
      · simp [h]
      · have hne : ¬e.1 = m := fun hem => h (hem.symm.trans he)
        simp [h, Ne.symm h, hne]
    · rename_i he
      rw [List.find?_cons, List.find?_cons]
      split
      · rename_i hem
        have hm : m ≠ n := fun hmn => he ((beq_iff_eq.mp hem).trans hmn)
        simp [hm]
      · exact ih

private theorem child?_removeChild (n m : String) (es : List (String × Entry)) :
    (directory (removeChild n es)).child? m = if m = n then none else (directory es).child? m := by
  simp only [child?_directory, removeChild]
  induction es with
  | nil => simp
  | cons e es ih =>
    by_cases he : e.1 = n
    · rw [List.filter_cons_of_neg (by simp [he]), ih]
      by_cases h : m = n
      · simp [h]
      · have hne : ¬e.1 = m := fun hem => h (hem.symm.trans he)
        simp [h, hne]
    · rw [List.filter_cons_of_pos (by simp [he]), List.find?_cons, List.find?_cons]
      split
      · rename_i hem
        have hm : m ≠ n := fun hmn => he ((beq_iff_eq.mp hem).trans hmn)
        simp [hm]
      · exact ih

@[simp] theorem child?_file (b : ByteArray) (n : String) : (file b).child? n = none := rfl

@[simp] theorem descend?_nil (e : Entry) : e.descend? [] = some e := rfl

theorem descend?_cons (e : Entry) (n : String) (ns : List String) :
    e.descend? (n :: ns) = (e.child? n).bind (·.descend? ns) := rfl

theorem descend?_append (e : Entry) (p q : List String) :
    e.descend? (p ++ q) = (e.descend? p).bind (·.descend? q) := by
  induction p generalizing e with
  | nil => rfl
  | cons n p ih =>
    rw [List.cons_append, descend?_cons, descend?_cons]
    cases e.child? n with
    | none => rfl
    | some c => exact ih c

theorem descend?_concat {root e c : Entry} {place : List String} {n : String}
    (h : root.descend? place = some e) (hc : e.child? n = some c) :
    root.descend? (place ++ [n]) = some c := by
  rw [descend?_append, h, Option.bind_some, descend?_cons, hc]
  rfl

/-- What is seen from a directory into which something was put. -/
theorem descend?_put_cons (n m : String) (ns ms : List String) (es : List (String × Entry))
    (new : Entry) :
    (put (n :: ns) (directory es) new).descend? (m :: ms) =
      if m = n then
        if ns = [] then new.descend? ms
        else ((directory es).child? n).bind fun e => (put ns e new).descend? ms
      else (directory es).descend? (m :: ms) := by
  rw [put]
  split
  · rw [descend?_cons, child?_putChild]
    split <;> rfl
  · split
    · rename_i e he
      rw [descend?_cons, child?_putChild, he]
      split <;> rfl
    · rename_i he
      split
      · rename_i hm
        rw [descend?_cons, hm, he]
        rfl
      · rfl

private theorem isDirectory_put (n : String) (ns : List String) (es : List (String × Entry)) (new : Entry) :
    (put (n :: ns) (directory es) new).isDirectory = true := by
  rw [put]
  split
  · rfl
  · split <;> rfl

/-- What is seen from a directory from which something was removed. -/
theorem descend?_remove_cons (n m : String) (ns ms : List String) (es : List (String × Entry)) :
    (remove (n :: ns) (directory es)).descend? (m :: ms) =
      if m = n then
        if ns = [] then none
        else ((directory es).child? n).bind fun e => (remove ns e).descend? ms
      else (directory es).descend? (m :: ms) := by
  rw [remove]
  split
  · rw [descend?_cons, child?_removeChild]
    split <;> rfl
  · split
    · rename_i e he
      rw [descend?_cons, child?_putChild, he]
      split <;> rfl
    · rename_i he
      split
      · rename_i hm
        rw [descend?_cons, hm, he]
        rfl
      · rfl

private theorem isDirectory_remove (n : String) (ns : List String) (es : List (String × Entry)) :
    (remove (n :: ns) (directory es)).isDirectory = true := by
  rw [remove]
  split
  · rfl
  · split <;> rfl

/-- The content of a file; a directory has none. -/
def content? : Entry → Option ByteArray
  | file b => some b
  | directory _ => none

/-- What is at a place: nothing, a directory, or a file with its content. -/
def seen? (e : Entry) (place : List String) : Option (Option ByteArray) :=
  (e.descend? place).map content?

/-- There is nothing in the entry. -/
def IsBare (e : Entry) : Prop := ∀ n ns, e.descend? (n :: ns) = none

theorem isBare_file (b : ByteArray) : (file b).IsBare := fun _ _ => rfl

theorem isBare_directory : (directory []).IsBare := fun _ _ => rfl

theorem seen?_nil {e : Entry} (h : e.isDirectory) : e.seen? [] = some none := by
  cases e with
  | file b => cases h
  | directory es => rfl

private theorem seen?_of_isBare {e : Entry} (h : e.IsBare) (q : List String) :
    e.seen? q = if q = [] then some e.content? else none := by
  cases q with
  | nil => rfl
  | cons n ns =>
    rw [seen?, h, if_neg (List.cons_ne_nil n ns)]
    rfl

theorem seen?_cons (e : Entry) (n : String) (ns : List String) :
    e.seen? (n :: ns) = (e.child? n).bind (·.seen? ns) := by
  rw [seen?, descend?_cons]
  cases e.child? n <;> rfl

/-- To put something bare where there is no directory changes what is at its place, and nothing else. -/
theorem seen?_put {new : Entry} (hnew : new.IsBare) : ∀ {place : List String} {root : Entry},
    place ≠ [] → (root.descend? place.dropLast).any isDirectory →
      (root.descend? place).any isDirectory = false → ∀ q,
        (put place root new).seen? q = if q = place then some new.content? else root.seen? q
  | [], _, hne, _, _, _ => (hne rfl).elim
  | _ :: ns, file b, _, hparent, _, _ => by
    cases ns <;> simp [descend?_cons, isDirectory, isFile] at hparent
  | n :: ns, directory es, _, _, _, [] => by
    rw [if_neg (by simp), seen?_nil (isDirectory_put n ns es new)]
    rfl
  | n :: ns, directory es, _, hparent, hplace, m :: ms => by
    rw [seen?, descend?_put_cons]
    by_cases hm : m = n
    · subst hm
      rw [if_pos rfl, seen?_cons]
      rw [descend?_cons] at hplace
      by_cases hns : ns = []
      · subst hns
        rw [if_pos rfl, ← seen?, seen?_of_isBare hnew]
        by_cases hms : ms = []
        · rw [if_pos hms, if_pos (by rw [hms])]
        · rw [if_neg hms, if_neg (by simp [hms])]
          cases hc : (directory es).child? m with
          | none => rfl
          | some c =>
            cases c with
            | file b => rw [Option.bind_some, seen?_of_isBare (isBare_file b), if_neg hms]
            | directory ds =>
              rw [hc] at hplace
              cases hplace
      · rw [List.dropLast_cons_of_ne_nil hns, descend?_cons] at hparent
        rw [if_neg hns]
        cases hc : (directory es).child? m with
        | none =>
          rw [hc] at hparent
          cases hparent
        | some c =>
          rw [hc] at hparent hplace
          have ih := seen?_put hnew hns hparent hplace ms
          simpa [seen?] using ih
    · rw [if_neg hm, if_neg (by simp [hm])]
      rfl

/-- To remove a file changes what is at its place, and nothing else. -/
theorem seen?_remove {b : ByteArray} : ∀ {place : List String} {root : Entry},
    root.descend? place = some (file b) → place ≠ [] → ∀ q,
      (remove place root).seen? q = if q = place then none else root.seen? q
  | [], _, _, hne, _ => (hne rfl).elim
  | n :: ns, file c, hplace, _, _ => by cases hplace
  | n :: ns, directory es, _, _, [] => by
    rw [if_neg (by simp), seen?_nil (isDirectory_remove n ns es)]
    rfl
  | n :: ns, directory es, hplace, _, m :: ms => by
    rw [seen?, descend?_remove_cons]
    by_cases hm : m = n
    · subst hm
      rw [descend?_cons] at hplace
      obtain ⟨c, hc, hrest⟩ := Option.bind_eq_some_iff.mp hplace
      rw [if_pos rfl, seen?_cons, hc]
      by_cases hns : ns = []
      · subst hns
        obtain rfl := Option.some.inj hrest
        rw [if_pos rfl, Option.bind_some, seen?_of_isBare (isBare_file b)]
        cases ms <;> simp
      · rw [if_neg hns]
        have ih := seen?_remove hrest hns ms
        simpa [seen?] using ih
    · rw [if_neg hm, if_neg (by simp [hm])]
      rfl

/-- A root that is a file cannot be removed. -/
theorem seen?_remove_cases {root : Entry} {place : List String} {b : ByteArray}
    (h : root.descend? place = some (file b)) (q : List String) :
    (remove place root).seen? q = root.seen? q ∨ q = place ∧ (remove place root).seen? q = none := by
  cases place with
  | nil =>
    have hroot : remove [] root = root := by cases root <;> rfl
    rw [hroot]
    exact .inl rfl
  | cons n ns =>
    rw [seen?_remove h (List.cons_ne_nil n ns)]
    split
    · rename_i hq
      exact .inr ⟨hq, rfl⟩
    · exact .inl rfl

end Entry

/-- A place holds a file with this content. -/
def Holds (f : Files) (place : List String) (b : ByteArray) : Prop :=
  f.root.descend? place = some (.file b)

variable {f f' : Files} {place : List String} {path : String} {b : ByteArray}

theorem isDirectoryAt_iff_seen? : f.isDirectoryAt place ↔ f.root.seen? place = some none := by
  rw [isDirectoryAt, Entry.seen?]
  cases f.root.descend? place with
  | none => simp
  | some e => cases e <;> simp [Entry.isDirectory, Entry.isFile, Entry.content?]

theorem holds_iff_seen? : f.Holds place b ↔ f.root.seen? place = some (some b) := by
  rw [Holds, Entry.seen?]
  cases f.root.descend? place with
  | none => simp
  | some e => cases e <;> simp [Entry.content?]

theorem descend?_eq_none_iff_seen? : f.root.descend? place = none ↔ f.root.seen? place = none := by
  rw [Entry.seen?, Option.map_eq_none_iff]

theorem place?_congr (hroot : ∀ p, f'.isDirectoryAt p = f.isDirectoryAt p)
    (hwork : f'.workingDirectory = f.workingDirectory) (path : String) :
    f'.place? path = f.place? path := by
  have henter : f'.enter = f.enter := by
    funext p s
    simp only [enter, hroot]
  simp only [place?, henter, hwork]

theorem bytes?_eq_some_iff :
    f.bytes? path = some b ↔ ∃ place, f.place? path = some place ∧ f.Holds place b := by
  unfold bytes? entry? Holds
  cases f.place? path with
  | none => simp
  | some place =>
    simp only [Option.bind_some, Option.some.injEq, exists_eq_left']
    split <;> simp_all

theorem holds_of_bytes? (hplace : f.place? path = some place) (h : f.bytes? path = some b) :
    f.Holds place b := by
  obtain ⟨place', hplace', hholds⟩ := bytes?_eq_some_iff.mp h
  cases hplace.symm.trans hplace'
  exact hholds

theorem exists_of_bytes? (h : f.bytes? path = some b) : f.exists path = true := by
  obtain ⟨place, hplace, hholds⟩ := bytes?_eq_some_iff.mp h
  rw [Files.exists, entry?, hplace, Option.bind_some, hholds]
  rfl

end StructureGraph.Files
