import StructureGraph.Java.Signature
import StructureGraph.Java.Source
import StructureGraph.Proofs.Java.Matching
import StructureGraph.Proofs.Java.TypeText

namespace StructureGraph.Java

open StructureGraph.Text (isBlank isIdentifierStart isIdentifierPart blankRanges startRanges continueRanges
  Ranges)
open Syntax

/-- A text that the tokens of a source take as one word. -/
structure IsWord (s : String) : Prop where
  nonempty : s ≠ ""
  spelled : ∀ c ∈ s.toList, isWordStart c ∨ isWordPart c

namespace IsWord

variable {s : String}

theorem not_mem (h : IsWord s) {c : Char} (hstart : isWordStart c = false) (hpart : isWordPart c = false) :
    c ∉ s.toList := by
  intro hc
  rcases h.spelled c hc with hc | hc
  · exact Bool.false_ne_true (hstart.symm.trans hc)
  · exact Bool.false_ne_true (hpart.symm.trans hc)

theorem no_dot (h : IsWord s) : '.' ∉ s.toList := h.not_mem (by decide +kernel) (by decide +kernel)

end IsWord

/-- The code points of the characters of words. -/
def wordRanges : Ranges := [(36, 36), (162, 162)] ++ startRanges ++ continueRanges

private theorem isAlphanum_iff (c : Char) : c.isAlphanum ↔
    (65 ≤ c.toNat ∧ c.toNat ≤ 90) ∨ (97 ≤ c.toNat ∧ c.toNat ≤ 122) ∨ (48 ≤ c.toNat ∧ c.toNat ≤ 57) := by
  have hcode : c.val.toNat = c.toNat := rfl
  change ((decide (65 ≤ c.val ∧ c.val ≤ 90) || (decide (97 ≤ c.val) && decide (c.val ≤ 122))) ||
    (decide (48 ≤ c.val) && decide (c.val ≤ 57))) = true ↔ _
  simp only [Bool.or_eq_true, Bool.and_eq_true, decide_eq_true_eq, UInt32.le_iff_toNat_le, hcode,
    UInt32.reduceToNat, or_assoc]

private theorem contains_wordRanges {c : Char} (h : isWordStart c ∨ isWordPart c) :
    wordRanges.contains c := by
  have hcases : c.isAlphanum ∨ c = '_' ∨ c = '$' ∨ c = '\u00A2' ∨ startRanges.contains c ∨
      continueRanges.contains c := by
    simp only [isWordStart, isWordPart, isIdentifierStart, isIdentifierPart, Char.isAlphanum,
      Bool.or_eq_true, Bool.and_eq_true, beq_iff_eq] at h ⊢
    grind
  rw [Ranges.contains_iff]
  rcases hcases with hc | rfl | rfl | rfl | hc | hc
  · rcases (isAlphanum_iff c).mp hc with hc | hc | hc
    · exact ⟨(65, 90), by decide +kernel, hc⟩
    · exact ⟨(97, 122), by decide +kernel, hc⟩
    · exact ⟨(48, 57), by decide +kernel, hc⟩
  · exact ⟨(95, 95), by decide +kernel, by decide⟩
  · exact ⟨(36, 36), by decide +kernel, by decide⟩
  · exact ⟨(162, 162), by decide +kernel, by decide⟩
  · obtain ⟨r, hr, hc⟩ := (Ranges.contains_iff _ c).mp hc
    exact ⟨r, by simp [wordRanges, hr], hc⟩
  · obtain ⟨r, hr, hc⟩ := (Ranges.contains_iff _ c).mp hc
    exact ⟨r, by simp [wordRanges, hr], hc⟩

/-- Blanks are no part of a word. -/
theorem isBlank_of_isWordPart {c : Char} (h : isWordStart c ∨ isWordPart c) : isBlank c = false := by
  have hapart : (blankRanges.all fun r => wordRanges.all fun r' => Nat.blt r.2 r'.1 || Nat.blt r'.2 r.1) := by
    decide +kernel
  obtain ⟨r', hr', hlo', hhi'⟩ := (Ranges.contains_iff _ c).mp (contains_wordRanges h)
  rw [isBlank, ← Bool.not_eq_true, Ranges.contains_iff]
  rintro ⟨r, hr, hlo, hhi⟩
  have hbetween := List.all_eq_true.mp (List.all_eq_true.mp hapart r hr) r' hr'
  simp only [Bool.or_eq_true, Nat.blt_eq] at hbetween
  omega

namespace IsWord

variable {s : String}

/-- Every word is a name in types. -/
theorem isErased (h : IsWord s) : TypeText.IsErased s := by
  refine fun c hc => ⟨?_, ?_, isBlank_of_isWordPart (h.spelled c hc)⟩
  · rintro rfl
    exact h.not_mem (by decide +kernel) (by decide +kernel) hc
  · rintro rfl
    exact h.not_mem (by decide +kernel) (by decide +kernel) hc

theorem erase_eq (h : IsWord s) : TypeText.erase s = s := TypeText.erase_of_isErased h.isErased

theorem base_eq (h : IsWord s) : TypeText.base s = s := by
  have hnone : ∀ c ∈ s.toList.reverse, ¬TypeText.isSuffix c := by
    intro c hc hsuffix
    simp only [TypeText.isSuffix, Bool.or_eq_true, beq_iff_eq] at hsuffix
    rw [List.mem_reverse] at hc
    rcases hsuffix with (rfl | rfl) | rfl
    · exact h.not_mem (by decide +kernel) (by decide +kernel) hc
    · exact h.not_mem (by decide +kernel) (by decide +kernel) hc
    · exact h.no_dot hc
  have hkept : s.toList.reverse.dropWhile TypeText.isSuffix = s.toList.reverse := by
    cases hs : s.toList.reverse with
    | nil => rfl
    | cons c cs => rw [List.dropWhile_cons_of_neg (hnone c (hs ▸ List.mem_cons_self))]
  rw [TypeText.base, hkept, List.reverse_reverse, String.ofList_toList]

end IsWord

namespace Syntax

private theorem isWord_of_isWordStart {c : Char} (hc : isWordStart c) (cs : List Char) :
    IsWord (String.ofList (c :: cs.takeWhile isWordPart)) where
  nonempty := by simp [← String.toList_inj]
  spelled := by
    intro c' hc'
    rw [String.toList_ofList] at hc'
    rcases List.mem_cons.mp hc' with rfl | hc'
    · exact .inl hc
    · exact .inr (List.all_eq_true.mp List.all_takeWhile c' hc')

private theorem shape_of_comment? {cs : List Char} {x : Shape × Nat} (h : comment? cs = some x) :
    x.1 ≠ .word := by
  unfold comment? at h
  split at h
  · rw [← Option.some.inj h]
    exact Shape.noConfusion
  · obtain ⟨n, -, rfl⟩ := Option.map_eq_some_iff.mp h
    exact Shape.noConfusion
  · cases h

private theorem shape_of_number? {cs : List Char} {x : Shape × Nat} (h : number? cs = some x) :
    x.1 ≠ .word := by
  simp only [number?] at h
  split at h
  · cases h
  · rw [← Option.some.inj h]
    exact Shape.noConfusion

private theorem shape_of_mark? {cs : List Char} {x : Shape × Nat} (h : mark? cs = some x) :
    x.1 ≠ .word := by
  obtain ⟨m, -, rfl⟩ := Option.map_eq_some_iff.mp h
  exact Shape.noConfusion

private theorem shape_of_stringLexeme (q : Quote) (holes : List Hole) (atClose atHole : Kind)
    (x : Stop × Nat) :
    (stringLexeme q holes atClose atHole x).1.1 ≠ .word := by
  obtain ⟨stop, n⟩ := x
  cases stop <;> exact Shape.noConfusion

private theorem shape_of_otherwise {cs : List Char} {x : Shape × Nat}
    (h : (((comment? cs).orElse fun _ => number? cs).orElse fun _ => mark? cs) = some x) : x.1 ≠ .word := by
  rw [Option.orElse_eq_or, Option.orElse_eq_or, Option.or_eq_some_iff, Option.or_eq_some_iff] at h
  rcases h with (hcomment | ⟨-, hnumber⟩) | ⟨-, hmark⟩
  · exact shape_of_comment? hcomment
  · exact shape_of_number? hnumber
  · exact shape_of_mark? hmark

private theorem take_word (c : Char) (rest : List Char) :
    (c :: rest).take (1 + (rest.takeWhile isWordPart).length) = c :: rest.takeWhile isWordPart := by
  rw [Nat.add_comm, List.take_succ_cons, List.takeWhile_eq_take_findIdx_not]
  simp

/-- A lexeme that is a word is spelled as one: all others have another shape. -/
theorem isWord_of_lexeme? {holes holes' : List Hole} {cs : List Char} {n : Nat}
    (h : lexeme? holes cs = some ((.word, n), holes')) : IsWord (String.ofList (cs.take n)) := by
  have hstring : ∀ {q hs atClose atHole} {stop? : Option (Stop × Nat)},
      stop?.map (stringLexeme q hs atClose atHole) ≠ some ((.word, n), holes') := by
    intro q hs atClose atHole stop? hstop
    obtain ⟨x, -, hx⟩ := Option.map_eq_some_iff.mp hstop
    exact shape_of_stringLexeme q hs atClose atHole x (by rw [hx])
  unfold lexeme? at h
  split at h
  · exact absurd h hstring
  · exact absurd h hstring
  · obtain ⟨m, -, hm⟩ := Option.map_eq_some_iff.mp h
    cases hm
  · split at h <;> cases h
  · split at h
    · exact absurd h hstring
    · cases h
    · cases h
  · rename_i c rest _ _ _ _ _
    split at h
    · rename_i hstart
      obtain ⟨rfl, -⟩ : 1 + (rest.takeWhile isWordPart).length = n ∧ holes = holes' := by simpa using h
      rw [take_word]
      exact isWord_of_isWordStart hstart rest
    · obtain ⟨x, hx, heq⟩ := Option.map_eq_some_iff.mp h
      obtain ⟨rfl, -⟩ := Prod.mk.inj heq
      exact absurd rfl (shape_of_otherwise hx)
  · cases h

private theorem isWord_of_mem_lexemesFrom {holes : List Hole} {line : Nat} {cs : List Char}
    {ls : List Lexeme}
    (h : lexemesFrom holes line cs = some ls) : ∀ l ∈ ls, l.shape = .word → IsWord l.text := by
  fun_induction lexemesFrom holes line cs generalizing ls with
  | case1 holes line cs gap rest =>
    rw [← Option.some.inj h]
    exact fun l hl => absurd hl List.not_mem_nil
  | case2 holes line cs gap rest => cases h
  | case3 holes line cs gap rest here _ shape n holes' hlexeme text =>
    rename_i ih
    obtain ⟨ls', hls', rfl⟩ := Option.map_eq_some_iff.mp h
    refine List.forall_mem_cons.mpr ⟨fun hshape => ?_, ih hls'⟩
    obtain rfl : shape = .word := hshape
    have hword := isWord_of_lexeme? hlexeme
    have hn : max n 1 = n := by
      refine Nat.max_eq_left (Nat.pos_of_ne_zero fun hzero => hword.nonempty ?_)
      rw [hzero, List.take_zero, String.ofList_nil]
    simpa only [text, hn] using hword

mutual

/-- Whatever is a name in a tree is a word. -/
def Tree.NamesWords : Tree → Prop
  | .leaf .. => True
  | .branch _ cs => Tree.NameWords cs

def Tree.NameWords : List (Option Role × Tree) → Prop
  | [] => True
  | (r, t) :: ts => (r = some .name → IsWord t.text) ∧ t.NamesWords ∧ Tree.NameWords ts

end

private theorem Tree.nameWords_iff {cs : List (Option Role × Tree)} :
    NameWords cs ↔ ∀ x ∈ cs, (x.1 = some .name → IsWord x.2.text) ∧ x.2.NamesWords := by
  induction cs with
  | nil => simp [NameWords]
  | cons x cs ih => rw [NameWords, ih, List.forall_mem_cons, and_assoc]

/-- A token and the comments before it give a tree no names but words. -/
structure Token.IsProper (t : Token) : Prop where
  word : t.shape = .word → IsWord t.text
  comments : ∀ c ∈ t.comments, c.NamesWords

private theorem namesWords_of_isCommentLeaf {c : Tree} (h : c.IsCommentLeaf) : c.NamesWords := by
  obtain ⟨k, gap, text, line, rfl, -⟩ := h
  exact trivial

private theorem exists_lexeme_of_attach {comments : List Tree} {ls : List Lexeme} {t : Token}
    (h : t ∈ (attach comments ls).1) : ∃ l ∈ ls, t.shape = l.shape ∧ t.text = l.text := by
  induction ls generalizing comments with
  | nil => cases h
  | cons l ls ih =>
    rw [attach] at h
    cases hc : l.comment? with
    | some c =>
      rw [hc] at h
      obtain ⟨l', hl', hsame⟩ := ih h
      exact ⟨l', List.mem_cons_of_mem l hl', hsame⟩
    | none =>
      rw [hc] at h
      rcases List.mem_cons.mp h with rfl | h
      · exact ⟨l, List.mem_cons_self, rfl, rfl⟩
      · obtain ⟨l', hl', hsame⟩ := ih h
        exact ⟨l', List.mem_cons_of_mem l hl', hsame⟩

private theorem isProper_of_mem_tokens? {source : String} {tokens : List Token} {last : List Tree}
    (h : tokens? source = some (tokens, last)) :
    (∀ t ∈ tokens, t.IsProper) ∧ ∀ c ∈ last, c.NamesWords := by
  obtain ⟨hcomments, hlast⟩ := isCommentLeaf_of_tokens? h
  refine ⟨fun t ht => ⟨fun hshape => ?_, fun c hc => namesWords_of_isCommentLeaf (hcomments t ht c hc)⟩,
    fun c hc => namesWords_of_isCommentLeaf (hlast c hc)⟩
  obtain ⟨ls, hls, hattach⟩ := Option.map_eq_some_iff.mp h
  obtain ⟨l, hl, hsame, htext⟩ := @exists_lexeme_of_attach [] ls t (by rwa [hattach])
  rw [htext]
  exact isWord_of_mem_lexemesFrom hls l hl (hsame ▸ hshape)

structure Piece.IsProper (p : Piece) : Prop where
  name : p.role = some .name → IsWord p.tree.text
  tree : p.tree.NamesWords
  comments : ∀ c ∈ p.comments, c.NamesWords

namespace Terminal

variable {ts rest : List Token} {piece : Piece}

private theorem isWord_of_take?_name {k : Kind} {barred : List String} (hts : ∀ t ∈ ts, t.IsProper)
    (h : (name k barred).take? ts = some (piece, rest)) : IsWord piece.tree.text := by
  cases ts with
  | nil => cases h
  | cons t ts =>
    simp only [take?, Option.ite_none_right_eq_some, Option.some.injEq, Prod.mk.injEq, Bool.and_eq_true,
      beq_iff_eq] at h
    obtain ⟨⟨hshape, -⟩, rfl, -⟩ := h
    exact (hts t List.mem_cons_self).word hshape

end Terminal

private theorem isProper_weave {ps : List Piece} (h : ∀ p ∈ ps, p.IsProper) :
    ∀ x ∈ weave ps, (x.1 = some .name → IsWord x.2.text) ∧ x.2.NamesWords := by
  intro x hx
  rcases mem_weave hx with ⟨p, hp, rfl⟩ | ⟨p, hp, c, hc, rfl⟩
  · exact ⟨(h p hp).name, (h p hp).tree⟩
  · exact ⟨nofun, (h p hp).comments c hc⟩

/-- The comments before the first of some pieces. -/
theorem namesWords_of_mem_comments {ps : List Piece} (h : ∀ p ∈ ps, p.IsProper) :
    ∀ c ∈ (ps.head?.map Piece.comments).getD [], c.NamesWords := by
  cases ps with
  | nil => exact nofun
  | cons p ps => exact (h p List.mem_cons_self).comments

private theorem Piece.isProper_node {k : Kind} {ps : List Piece} (h : ∀ p ∈ ps, p.IsProper) :
    (Piece.node k ps).IsProper where
  name := nofun
  tree := Tree.nameWords_iff.mpr (isProper_weave h)
  comments := namesWords_of_mem_comments h

namespace Pattern

variable {ρ : Type} {rules : ρ → Pattern ρ} {p : Pattern ρ} {built a : List Piece} {ts rest : List Token}

/-- Only a word that is taken as a name becomes the name of anything. -/
def namesWord : Pattern ρ → Bool
  | .role .name (.take (.name ..)) => true
  | .role .name _ => false
  | _ => true

private theorem exists_of_namesWord_role {r : Role} (h : (role r p).namesWord) (hname : r = .name) :
    ∃ k barred, p = take (.name k barred) := by
  subst hname
  unfold namesWord at h
  split at h
  · rename_i k barred heq
    obtain ⟨-, rfl⟩ := Pattern.role.inj heq
    exact ⟨k, barred, rfl⟩
  · cases h
  · rename_i hother
    exact (hother p rfl).elim

theorem Matches.isProper (h : Matches rules p built ts a rest) (hrules : ∀ r, (rules r).Passes namesWord)
    (hp : p.Passes namesWord) (hbuilt : ∀ x ∈ built, x.IsProper) (hts : ∀ t ∈ ts, t.IsProper) :
    ∀ x ∈ a, x.IsProper := by
  refine (forall_built_of_matches hrules ?_ ?_ (fun _ _ => Piece.isProper_node) h hp hbuilt hts).1
  · intro terminal ts piece rest _ hts htake
    obtain ⟨-, ⟨t, ht, hcomments⟩, hrole, gap, text, line, htree⟩ := Terminal.take?_spec htake
    exact ⟨by simp [hrole], htree ▸ trivial, hcomments ▸ (hts t ht).comments⟩
  · intro r p built ts a rest hcheck hts hmatch ha x hx
    refine ⟨fun hrole => ?_, (ha x hx).tree, (ha x hx).comments⟩
    obtain ⟨k, barred, rfl⟩ := exists_of_namesWord_role hcheck (Option.some.inj hrole)
    cases hmatch with
    | take htake =>
      obtain rfl := List.mem_singleton.mp hx
      have hword : IsWord x.tree.text := Terminal.isWord_of_take?_name hts htake
      exact hword

end Pattern

private theorem Grammar.namesWord_rules (r : Rule) : (rules r).Passes Pattern.namesWord := by
  cases r with
  | binary level arrow => exact passes_binary (by decide +kernel) (fun _ => rfl) level arrow
  | operand arrow | cast arrow | expression arrow => cases arrow <;> decide +kernel
  | type s | unannotatedType s | simpleType s => rfl
  | assignable arrow => rfl
  | _ => decide +kernel

private theorem namesWords_of_parse? {source : String} {t : Tree} (h : parse? source = some t) :
    t.NamesWords := by
  obtain ⟨tokens, last, pieces, htokens, hmatches, rfl⟩ := exists_of_parse? h
  obtain ⟨hproper, hlast⟩ := isProper_of_mem_tokens? htokens
  have hpieces := hmatches.isProper Grammar.namesWord_rules rfl nofun hproper
  have hcomments : ∀ {cs : List Tree}, (∀ c ∈ cs, c.NamesWords) → ∀ x ∈ cs.map ((none : Option Role), ·),
      (x.1 = some .name → IsWord x.2.text) ∧ x.2.NamesWords := by
    intro cs hcs x hx
    obtain ⟨c, hc, rfl⟩ := List.mem_map.mp hx
    exact ⟨nofun, hcs c hc⟩
  rw [Tree.NamesWords, Tree.nameWords_iff]
  exact List.forall_mem_append.mpr ⟨List.forall_mem_append.mpr
    ⟨hcomments (namesWords_of_mem_comments hpieces), isProper_weave hpieces⟩, hcomments hlast⟩

end Syntax

namespace Extraction

open Syntax

private theorem namesWords_of_mem_children {t : Tree} (ht : t.NamesWords) {x : Option Role × Tree}
    (hx : x ∈ t.children) : (x.1 = some .name → IsWord x.2.text) ∧ x.2.NamesWords := by
  cases t with
  | leaf => cases hx
  | branch k cs => exact Tree.nameWords_iff.mp ht x hx

private theorem isWord_of_childAs {t name : Tree} (ht : t.NamesWords) (h : t.childAs .name = some name) :
    IsWord name.text := by
  obtain ⟨x, hx, rfl⟩ := List.mem_map.mp (List.mem_of_mem_head? h)
  obtain ⟨hx, hrole⟩ := List.mem_filter.mp hx
  exact (namesWords_of_mem_children ht hx).1 (by simpa using hrole)

/-- The names in the paths of some declarations are words. -/
def ArePathsOfWords (ds : List TypeDeclaration) : Prop := ∀ d ∈ ds, ∀ n ∈ d.path, IsWord n

mutual

private theorem arePathsOfWords_types {outer : List String} (houter : ∀ n ∈ outer, IsWord n) :
    ∀ {t : Tree}, t.NamesWords → ArePathsOfWords (types outer t)
  | .leaf .., _ => nofun
  | .branch k cs, ht => by
    rw [types]
    split
    · exact fun d hd => absurd hd List.not_mem_nil
    · rename_i name hname
      have hword := isWord_of_childAs ht hname
      have hpath : ∀ n ∈ outer ++ [name.text], IsWord n :=
        List.forall_mem_append.mpr ⟨houter, by simpa using hword⟩
      exact List.forall_mem_cons.mpr ⟨hpath, arePathsOfWords_typesOfBody hpath ht⟩

private theorem arePathsOfWords_typesOfBody {outer : List String} (houter : ∀ n ∈ outer, IsWord n) :
    ∀ {cs : List (Option Role × Tree)}, Tree.NameWords cs → ArePathsOfWords (typesOfBody outer cs)
  | [], _ => nofun
  | (r, t) :: ts, h => by
    rw [Tree.NameWords] at h
    rw [typesOfBody]
    split
    · exact arePathsOfWords_memberTypes houter h.2.1
    · exact arePathsOfWords_typesOfBody houter h.2.2

private theorem arePathsOfWords_memberTypes {outer : List String} (houter : ∀ n ∈ outer, IsWord n) :
    ∀ {t : Tree}, t.NamesWords → ArePathsOfWords (memberTypes outer t)
  | .leaf .., _ => nofun
  | .branch _ _, ht => arePathsOfWords_memberTypesAmong houter ht

private theorem arePathsOfWords_memberTypesAmong {outer : List String} (houter : ∀ n ∈ outer, IsWord n) :
    ∀ {cs : List (Option Role × Tree)}, Tree.NameWords cs → ArePathsOfWords (memberTypesAmong outer cs)
  | [], _ => nofun
  | (r, t) :: ts, h => by
    rw [Tree.NameWords] at h
    rw [memberTypesAmong]
    refine List.forall_mem_append.mpr ⟨?_, arePathsOfWords_memberTypesAmong houter h.2.2⟩
    split
    · exact arePathsOfWords_types houter h.2.1
    · split
      · exact arePathsOfWords_memberTypes houter h.2.1
      · exact nofun

end

end Extraction

/-- The names in the path of a declared type are words. -/
theorem isWord_of_mem_path {origin text : String} {u : CompilationUnit} {d : TypeDeclaration} {n : String}
    (hu : CompilationUnit.ofText origin text = .ok u) (hd : d ∈ u.types) (hn : n ∈ d.path) : IsWord n := by
  rw [CompilationUnit.ofText] at hu
  split at hu
  · rename_i tree htree
    rw [← Except.ok.inj hu] at hd
    obtain ⟨t, ht, hd⟩ := List.mem_flatMap.mp hd
    obtain ⟨ht, -⟩ := List.mem_filter.mp ht
    obtain ⟨x, hx, rfl⟩ := List.mem_map.mp (List.mem_filter.mp ht).1
    have hwords := (Extraction.namesWords_of_mem_children (namesWords_of_parse? htree) hx).2
    exact Extraction.arePathsOfWords_types (by simp) hwords d hd n hn
  · cases hu

end StructureGraph.Java
