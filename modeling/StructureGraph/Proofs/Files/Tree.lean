import StructureGraph.Proofs.Files.Directories
import StructureGraph.Proofs.Files.Place

namespace StructureGraph.Files

open StructureGraph.Files.Path (IsName)

instance (n : String) : Decidable (IsName n) :=
  decidable_of_iff (n ≠ "" ∧ n ≠ "." ∧ n ≠ ".." ∧ '/' ∉ n.toList)
    ⟨fun h => ⟨h.1, h.2.1, h.2.2.1, h.2.2.2⟩,
      fun h => ⟨h.ne_empty, h.ne_here, h.ne_up, h.no_slash⟩⟩

namespace Entry

mutual

/-- No directory has two entries of one name, and all names can be written in paths. -/
def isProper : Entry → Bool
  | file _ => true
  | directory es => areProper es

def areProper : List (String × Entry) → Bool
  | [] => true
  | (n, e) :: es => decide (IsName n) && !(es.map Prod.fst).contains n && isProper e && areProper es

end

variable {n m : String} {e new : Entry} {es : List (String × Entry)} {place : List String}

theorem areProper_cons : areProper ((n, e) :: es) ↔
    IsName n ∧ n ∉ es.map Prod.fst ∧ e.isProper ∧ areProper es := by
  simp [areProper, and_assoc]

theorem child?_cons (n m : String) (e : Entry) (es : List (String × Entry)) :
    (directory ((n, e) :: es)).child? m = if m = n then some e else (directory es).child? m := by
  simp only [child?_directory, List.find?_cons]
  by_cases h : m = n
  · simp [h]
  · have hne : (n == m) = false := by simpa using Ne.symm h
    simp [h, hne]

/-- The entries of a proper directory are those that are found under their names. -/
theorem mem_iff_child? (h : areProper es) : (n, e) ∈ es ↔ (directory es).child? n = some e := by
  induction es with
  | nil => simp [child?_directory]
  | cons x es ih =>
    obtain ⟨m, c⟩ := x
    obtain ⟨-, hfresh, -, hes⟩ := areProper_cons.mp h
    rw [child?_cons, List.mem_cons, Prod.mk.injEq]
    split
    · rename_i hm
      subst hm
      constructor
      · rintro (⟨-, rfl⟩ | hmem)
        · rfl
        · exact absurd (List.mem_map_of_mem (f := Prod.fst) hmem) hfresh
      · rintro heq
        exact .inl ⟨rfl, (Option.some.inj heq).symm⟩
    · rename_i hm
      rw [← ih hes]
      simp [hm]

theorem isProper_of_mem (h : areProper es) (hmem : (n, e) ∈ es) : IsName n ∧ e.isProper := by
  induction es with
  | nil => cases hmem
  | cons x es ih =>
    obtain ⟨hn, -, he, hes⟩ := areProper_cons.mp h
    rcases List.mem_cons.mp hmem with rfl | hmem
    · exact ⟨hn, he⟩
    · exact ih hes hmem

theorem isProper_of_child? (h : areProper es) (hchild : (directory es).child? n = some e) :
    IsName n ∧ e.isProper :=
  isProper_of_mem h ((mem_iff_child? h).mpr hchild)

theorem isProper_descend? {c : Entry} (h : e.isProper) (hc : e.descend? place = some c) :
    c.isProper ∧ ∀ n ∈ place, IsName n := by
  induction place generalizing e with
  | nil =>
    obtain rfl := Option.some.inj hc
    exact ⟨h, nofun⟩
  | cons n ns ih =>
    obtain ⟨d, hd, hrest⟩ := Option.bind_eq_some_iff.mp hc
    cases e with
    | file b => cases hd
    | directory es =>
      obtain ⟨hn, hproper⟩ := isProper_of_child? h hd
      obtain ⟨hc, hns⟩ := ih hproper hrest
      exact ⟨hc, List.forall_mem_cons.mpr ⟨hn, hns⟩⟩

private theorem map_fst_putChild (n : String) (new : Entry) (es : List (String × Entry)) :
    m ∈ (putChild n new es).map Prod.fst ↔ m = n ∨ m ∈ es.map Prod.fst := by
  induction es with
  | nil => simp [putChild]
  | cons x es ih =>
    rw [putChild]
    split
    · rename_i hx
      simp [hx]
    · rw [List.map_cons, List.mem_cons, ih, List.map_cons, List.mem_cons, or_left_comm]

private theorem areProper_putChild (hn : IsName n) (hnew : new.isProper) (h : areProper es) :
    areProper (putChild n new es) := by
  induction es with
  | nil => exact areProper_cons.mpr ⟨hn, by simp, hnew, h⟩
  | cons x es ih =>
    obtain ⟨m, c⟩ := x
    obtain ⟨hm, hfresh, hc, hes⟩ := areProper_cons.mp h
    rw [putChild]
    split
    · rename_i hx
      exact areProper_cons.mpr ⟨hn, by rwa [← hx], hnew, hes⟩
    · rename_i hx
      refine areProper_cons.mpr ⟨hm, ?_, hc, ih hes⟩
      rw [map_fst_putChild, not_or]
      exact ⟨hx, hfresh⟩

theorem isProper_put (hplace : ∀ n ∈ place, IsName n) (hnew : new.isProper) (h : e.isProper) :
    (put place e new).isProper := by
  induction place generalizing e with
  | nil => exact hnew
  | cons n ns ih =>
    obtain ⟨hn, hns⟩ := List.forall_mem_cons.mp hplace
    cases e with
    | file b => exact h
    | directory es =>
      rw [put]
      split
      · exact areProper_putChild hn hnew h
      · split
        · rename_i c hc
          exact areProper_putChild hn (ih hns (isProper_of_child? h hc).2) h
        · exact h

private theorem areProper_removeChild (n : String) (h : areProper es) : areProper (removeChild n es) := by
  induction es with
  | nil => exact h
  | cons x es ih =>
    obtain ⟨hm, hfresh, hc, hes⟩ := areProper_cons.mp h
    rw [removeChild, List.filter_cons]
    split
    · refine areProper_cons.mpr ⟨hm, fun hmem => hfresh ?_, hc, ih hes⟩
      obtain ⟨y, hy, heq⟩ := List.mem_map.mp hmem
      exact List.mem_map.mpr ⟨y, List.mem_of_mem_filter hy, heq⟩
    · exact ih hes

theorem isProper_remove (h : e.isProper) : (remove place e).isProper := by
  induction place generalizing e with
  | nil => exact h
  | cons n ns ih =>
    cases e with
    | file b => exact h
    | directory es =>
      rw [remove]
      split
      · exact areProper_removeChild n h
      · split
        · rename_i c hc
          obtain ⟨hn, hproper⟩ := isProper_of_child? h hc
          exact areProper_putChild hn (ih hproper) h
        · exact h

end Entry

/-- The tree is proper, and relative paths start from a directory in it. -/
structure IsProper (f : Files) : Prop where
  root : f.root.isProper
  workingDirectory : f.isDirectoryAt f.workingDirectory

variable {f f' f'' : Files} {place q : List String} {path : String} {b : ByteArray}

theorem IsProper.withSystem (h : f.IsProper) (system : System) : IsProper { f with system } :=
  ⟨h.root, h.workingDirectory⟩

/-- All directories are there, and at all but some places the same files with the same contents. -/
structure Extends (hidden : List String → Prop) (f f' : Files) : Prop where
  workingDirectory : f'.workingDirectory = f.workingDirectory
  isDirectoryAt : ∀ p, f.isDirectoryAt p → f'.isDirectoryAt p
  holds : ∀ p b, ¬hidden p → (f'.Holds p b ↔ f.Holds p b)

namespace Extends

variable {hidden : List String → Prop}

theorem refl (hidden : List String → Prop) (f : Files) : Extends hidden f f :=
  ⟨rfl, fun _ h => h, fun _ _ _ => Iff.rfl⟩

theorem trans (h : Extends hidden f f') (h' : Extends hidden f' f'') : Extends hidden f f'' where
  workingDirectory := h'.workingDirectory.trans h.workingDirectory
  isDirectoryAt p hp := h'.isDirectoryAt p (h.isDirectoryAt p hp)
  holds p b hp := (h'.holds p b hp).trans (h.holds p b hp)

theorem mono {hidden' : List String → Prop} (h : Extends hidden f f') (hle : ∀ p, hidden p → hidden' p) :
    Extends hidden' f f' :=
  ⟨h.workingDirectory, h.isDirectoryAt, fun p b hp => h.holds p b fun hhidden => hp (hle p hhidden)⟩

theorem withSystem (h : Extends hidden f f') (system : System) : Extends hidden f { f' with system } :=
  ⟨h.workingDirectory, h.isDirectoryAt, h.holds⟩

theorem destination (h : Extends hidden f f') (path : String) :
    f'.destination path = f.destination path := by
  rw [Files.destination, Files.destination, h.workingDirectory]

theorem place? (h : Extends hidden f f') (hplace : f.place? path = some place) :
    f'.place? path = some place :=
  place?_mono h.isDirectoryAt h.workingDirectory hplace

theorem isDirectory (h : Extends hidden f f') (hdirectory : f.isDirectory path) :
    f'.isDirectory path := by
  rw [Files.isDirectory, Option.any_eq_true] at hdirectory
  obtain ⟨e, hentry, he⟩ := hdirectory
  obtain ⟨place, hplace, hthere⟩ := Option.bind_eq_some_iff.mp hentry
  have hmade : f'.isDirectoryAt place := h.isDirectoryAt place (by
    rw [Files.isDirectoryAt, hthere]
    exact he)
  rw [Files.isDirectory, entry?, h.place? hplace]
  exact hmade

theorem bytes? (h : Extends hidden f f') (hplace : f.place? path = some place)
    (hseen : ¬hidden place) : f'.bytes? path = f.bytes? path := by
  have hholds : ∀ b, f'.bytes? path = some b ↔ f.bytes? path = some b := by
    intro b
    simp only [bytes?_eq_some_iff, h.place? hplace, hplace, Option.some.injEq, exists_eq_left']
    exact h.holds place b hseen
  exact Option.ext hholds

theorem text? (h : Extends hidden f f') (hplace : f.place? path = some place)
    (hseen : ¬hidden place) : f'.text? path = f.text? path := by
  rw [Files.text?, Files.text?, h.bytes? hplace hseen]

end Extends

end StructureGraph.Files
