import Mathlib.Data.List.DropRight
import Mathlib.Data.String.Basic
import StructureGraph.Java.Signature

namespace StructureGraph.Java

open StructureGraph.Text (isBlank)

namespace TypeText

/-- The character is kept where no angle bracket is open. -/
def IsKept (c : Char) : Prop := c ≠ '<' ∧ c ≠ '>' ∧ isBlank c = false

/-- The text has no angle brackets and no blanks. -/
def IsErased (s : String) : Prop := ∀ c ∈ s.toList, IsKept c

instance (c : Char) : Decidable (IsKept c) := inferInstanceAs (Decidable (_ ∧ _))

instance (s : String) : Decidable (IsErased s) := List.decidableBAll _ s.toList

variable {cs ds kept kept' : List Char} {s t : String} {depth : ℕ}

private theorem eraseFrom_of_isKept (h : ∀ c ∈ cs, IsKept c) : eraseFrom 0 cs = cs := by
  induction cs with
  | nil => rfl
  | cons c cs ih =>
    obtain ⟨⟨hopen, hclose, hblank⟩, hcs⟩ := List.forall_mem_cons.mp h
    rw [eraseFrom, if_neg hopen, if_neg hclose, if_pos ⟨rfl, hblank⟩, ih hcs]

private theorem isKept_of_mem_eraseFrom {c : Char} (h : c ∈ eraseFrom depth cs) : IsKept c := by
  fun_induction eraseFrom depth cs with
  | case1 => cases h
  | case2 depth cs ih => exact ih h
  | case3 depth cs _ ih => exact ih h
  | case4 depth d cs hopen hclose hkept ih =>
    rcases List.mem_cons.mp h with rfl | h
    · exact ⟨hopen, hclose, hkept.2⟩
    · exact ih h
  | case5 depth d cs _ _ _ ih => exact ih h

theorem erase_of_isErased (h : IsErased s) : erase s = s := by
  rw [erase, eraseFrom_of_isKept h, String.ofList_toList]

private theorem isErased_erase (written : String) : IsErased (erase written) := by
  intro c hc
  rw [erase, String.toList_ofList] at hc
  exact isKept_of_mem_eraseFrom hc

private theorem erase_erase (written : String) : erase (erase written) = erase written :=
  erase_of_isErased (isErased_erase written)

theorem IsErased.append (hs : IsErased s) (ht : IsErased t) : IsErased (s ++ t) := by
  rw [IsErased, String.toList_append]
  exact List.forall_mem_append.mpr ⟨hs, ht⟩

theorem base_append_suffix (erased : String) : base erased ++ suffix erased = erased := by
  have hparts := List.takeWhile_append_dropWhile (p := isSuffix) (l := erased.toList.reverse)
  rw [base, suffix, ← String.ofList_append, ← List.reverse_append, hparts, List.reverse_reverse,
    String.ofList_toList]

theorem isErased_base_and_suffix (written : String) :
    IsErased (base (erase written)) ∧ IsErased (suffix (erase written)) := by
  have herased := isErased_erase written
  rw [← base_append_suffix (erase written), IsErased, String.toList_append] at herased
  exact List.forall_mem_append.mp herased

theorem isSuffix_of_mem_suffix {c : Char} (h : c ∈ (suffix s).toList) : isSuffix c := by
  rw [suffix, String.toList_ofList, List.mem_reverse] at h
  exact List.all_eq_true.mp List.all_takeWhile c h

private theorem toList_base (erased : String) : (base erased).toList = erased.toList.rdropWhile isSuffix :=
  String.toList_ofList

/-- What ends in a text that is its own base is its own base as well. -/
theorem base_append_of_base_eq (hbase : base t = t) (hne : t ≠ "") (s : String) : base (s ++ t) = s ++ t := by
  have ht : t.toList ≠ [] := fun h => hne (String.toList_eq_nil_iff.mp h)
  rw [← String.toList_inj, toList_base, List.rdropWhile_eq_self_iff] at hbase ⊢
  intro hst
  simp only [String.toList_append] at hst ⊢
  rw [List.getLast_append_of_ne_nil hst ht]
  exact hbase ht

theorem base_base (erased : String) : base (base erased) = base erased := by
  rw [← String.toList_inj, toList_base, toList_base, List.rdropWhile_idempotent]

theorem suffix_eq_empty (h : base s = s) : suffix s = "" := by
  have hparts := base_append_suffix s
  rw [h] at hparts
  simpa using hparts

/-- Brackets and dots that are put behind a text belong to its suffix. -/
theorem base_append (s : String) (ht : ∀ c ∈ t.toList, isSuffix c) : base (s ++ t) = base s := by
  have hreverse : ∀ c ∈ t.toList.reverse, isSuffix c := fun c hc => ht c (List.mem_reverse.mp hc)
  rw [base, base, String.toList_append, List.reverse_append, List.dropWhile_append_of_pos hreverse]

theorem suffix_append (s : String) (ht : ∀ c ∈ t.toList, isSuffix c) : suffix (s ++ t) = suffix s ++ t := by
  have hreverse : ∀ c ∈ t.toList.reverse, isSuffix c := fun c hc => ht c (List.mem_reverse.mp hc)
  rw [suffix, suffix, String.toList_append, List.reverse_append, List.takeWhile_append_of_pos hreverse]
  simp

/-- How many angle brackets are open behind a text. -/
def depthAfter : Nat → List Char → Nat
  | depth, [] => depth
  | depth, c :: cs =>
    if c = '<' then depthAfter (depth + 1) cs
    else if c = '>' then depthAfter (depth - 1) cs
    else depthAfter depth cs

theorem eraseFrom_append (depth : Nat) (cs ds : List Char) :
    eraseFrom depth (cs ++ ds) = eraseFrom depth cs ++ eraseFrom (depthAfter depth cs) ds := by
  induction cs generalizing depth with
  | nil => rfl
  | cons c cs ih =>
    rw [List.cons_append, eraseFrom, eraseFrom, depthAfter]
    split
    · exact ih _
    · split
      · exact ih _
      · split
        · rw [ih, List.cons_append]
        · exact ih _

theorem depthAfter_append (depth : Nat) (cs ds : List Char) :
    depthAfter depth (cs ++ ds) = depthAfter (depthAfter depth cs) ds := by
  induction cs generalizing depth with
  | nil => rfl
  | cons c cs ih =>
    rw [List.cons_append, depthAfter, depthAfter]
    split
    · exact ih _
    · split
      · exact ih _
      · exact ih _

/-- The text closes all angle brackets that it opens, and no others. Where none is open in front of it, this
is left of it, and else nothing. -/
structure IsReadAs (cs kept : List Char) : Prop where
  depthAfter_eq : ∀ depth, depthAfter depth cs = depth
  outside : eraseFrom 0 cs = kept
  inside : ∀ depth, eraseFrom (depth + 1) cs = []

theorem isReadAs_nil : IsReadAs [] [] := ⟨fun _ => rfl, rfl, fun _ => rfl⟩

theorem IsReadAs.append (h : IsReadAs cs kept) (h' : IsReadAs ds kept') :
    IsReadAs (cs ++ ds) (kept ++ kept') where
  depthAfter_eq depth := by rw [depthAfter_append, h.depthAfter_eq, h'.depthAfter_eq]
  outside := by rw [eraseFrom_append, h.depthAfter_eq, h.outside, h'.outside]
  inside depth := by rw [eraseFrom_append, h.depthAfter_eq, h.inside, h'.inside, List.append_nil]

private theorem depthAfter_of_forall_ne (h : ∀ c ∈ cs, c ≠ '<' ∧ c ≠ '>') (depth : ℕ) :
    depthAfter depth cs = depth := by
  induction cs with
  | nil => rfl
  | cons c cs ih =>
    obtain ⟨⟨hopen, hclose⟩, hcs⟩ := List.forall_mem_cons.mp h
    rw [depthAfter, if_neg hopen, if_neg hclose, ih hcs]

private theorem eraseFrom_succ_of_forall_ne (h : ∀ c ∈ cs, c ≠ '<' ∧ c ≠ '>') (depth : ℕ) :
    eraseFrom (depth + 1) cs = [] := by
  induction cs with
  | nil => rfl
  | cons c cs ih =>
    obtain ⟨⟨hopen, hclose⟩, hcs⟩ := List.forall_mem_cons.mp h
    rw [eraseFrom, if_neg hopen, if_neg hclose, if_neg (by simp), ih hcs]

/-- Without angle brackets and blanks all is left. -/
theorem IsErased.isReadAs (h : IsErased s) : IsReadAs s.toList s.toList where
  depthAfter_eq := depthAfter_of_forall_ne fun c hc => ⟨(h c hc).1, (h c hc).2.1⟩
  outside := eraseFrom_of_isKept h
  inside := eraseFrom_succ_of_forall_ne fun c hc => ⟨(h c hc).1, (h c hc).2.1⟩

private theorem ne_bracket_of_isBlank {c : Char} (h : isBlank c) : c ≠ '<' ∧ c ≠ '>' := by
  constructor <;>
    · rintro rfl
      revert h
      decide

/-- Of blanks nothing is left. -/
theorem isReadAs_of_isBlank (h : ∀ c ∈ cs, isBlank c) : IsReadAs cs [] where
  depthAfter_eq := depthAfter_of_forall_ne fun c hc => ne_bracket_of_isBlank (h c hc)
  outside := by
    induction cs with
    | nil => rfl
    | cons c cs ih =>
      obtain ⟨hc, hcs⟩ := List.forall_mem_cons.mp h
      obtain ⟨hopen, hclose⟩ := ne_bracket_of_isBlank hc
      rw [eraseFrom, if_neg hopen, if_neg hclose, if_neg (by simp [hc]), ih hcs]
  inside := eraseFrom_succ_of_forall_ne fun c hc => ne_bracket_of_isBlank (h c hc)

/-- Of what stands in angle brackets nothing is left. -/
theorem IsReadAs.bracketed (h : IsReadAs cs kept) : IsReadAs ('<' :: (cs ++ ['>'])) [] where
  depthAfter_eq depth := by
    rw [depthAfter, if_pos rfl, depthAfter_append, h.depthAfter_eq]
    rfl
  outside := by
    rw [eraseFrom, if_pos rfl, eraseFrom_append, h.inside, h.depthAfter_eq]
    rfl
  inside depth := by
    rw [eraseFrom, if_pos rfl, eraseFrom_append, h.inside, h.depthAfter_eq]
    rfl

end TypeText

/-- A name in a type. -/
structure TypeName where
  text : String
  isErased : TypeText.IsErased text

inductive TypeBound where
  | upper
  | lower

def TypeBound.word : TypeBound → String
  | upper => "extends"
  | lower => "super"

mutual

/-- Names with points between them, and as many pairs of brackets behind them as the array has dimensions. -/
inductive TypeExpression where
  | mk (first : TypePart) (further : List TypePart) (dimensions : ℕ)

/-- A name in a type, perhaps with arguments. -/
inductive TypePart where
  | plain (name : TypeName)
  | applied (name : TypeName) (first : TypeArgument) (further : List TypeArgument)

inductive TypeArgument where
  | type (t : TypeExpression)
  | wildcard
  | bounded (bound : TypeBound) (t : TypeExpression)

end

def TypePart.name : TypePart → TypeName
  | plain name => name
  | applied name _ _ => name

mutual

def TypeExpression.tokens : TypeExpression → List String
  | .mk first further dimensions =>
    first.tokens ++ furtherParts further ++ (List.replicate dimensions ["[", "]"]).flatten

def TypePart.tokens : TypePart → List String
  | .plain name => [name.text]
  | .applied name first further => name.text :: "<" :: (first.tokens ++ furtherArguments further ++ [">"])

def TypeArgument.tokens : TypeArgument → List String
  | .type t => t.tokens
  | .wildcard => ["?"]
  | .bounded bound t => "?" :: bound.word :: t.tokens

def furtherParts : List TypePart → List String
  | [] => []
  | p :: ps => "." :: (p.tokens ++ furtherParts ps)

def furtherArguments : List TypeArgument → List String
  | [] => []
  | a :: as => "," :: (a.tokens ++ furtherArguments as)

end

/-- Tokens with gaps in front of them and one at the end. -/
def spell (gap : ℕ → String) : List String → String
  | [] => gap 0
  | token :: tokens => gap 0 ++ token ++ spell (fun i => gap (i + 1)) tokens

/-- What is left of a type: its names with the points between them, and its brackets. -/
def TypeExpression.erased : TypeExpression → String
  | .mk first further dimensions =>
    String.intercalate "." ((first :: further).map (·.name.text)) ++
      String.join (List.replicate dimensions "[]")

namespace TypeText

def charsOf (tokens : List String) : List Char := tokens.flatMap String.toList

@[simp] theorem charsOf_nil : charsOf [] = [] := rfl

@[simp] theorem charsOf_cons (token : String) (tokens : List String) :
    charsOf (token :: tokens) = token.toList ++ charsOf tokens := rfl

@[simp] theorem charsOf_append (tokens tokens' : List String) :
    charsOf (tokens ++ tokens') = charsOf tokens ++ charsOf tokens' :=
  List.flatMap_append

/-- Gaps make no difference. -/
theorem eraseFrom_spell {gap : ℕ → String} (hgap : ∀ i, ∀ c ∈ (gap i).toList, isBlank c) (depth : ℕ)
    (tokens : List String) : eraseFrom depth (spell gap tokens).toList = eraseFrom depth (charsOf tokens) := by
  have hnothing (i depth : ℕ) : eraseFrom depth (gap i).toList = [] ∧ depthAfter depth (gap i).toList = depth := by
    have hread := isReadAs_of_isBlank (hgap i)
    refine ⟨?_, hread.depthAfter_eq depth⟩
    cases depth with
    | zero => exact hread.outside
    | succ depth => exact hread.inside depth
  induction tokens generalizing gap depth with
  | nil => exact (hnothing 0 depth).1
  | cons token tokens ih =>
    rw [spell, String.toList_append, String.toList_append, charsOf_cons, List.append_assoc, eraseFrom_append,
      (hnothing 0 depth).1, (hnothing 0 depth).2, List.nil_append, eraseFrom_append, eraseFrom_append,
      ih (fun i => hgap (i + 1)) _ fun i => hnothing (i + 1)]

theorem toList_intercalate_cons (s : String) (ss : List String) :
    (String.intercalate "." (s :: ss)).toList = s.toList ++ ss.flatMap fun t => '.' :: t.toList := by
  induction ss generalizing s with
  | nil => simp
  | cons t ss ih =>
    rw [String.intercalate_cons_cons, String.toList_append, String.toList_append, ih, List.flatMap_cons]
    simp

private theorem isReadAs_brackets (dimensions : ℕ) :
    IsReadAs (charsOf (List.replicate dimensions ["[", "]"]).flatten)
      (String.join (List.replicate dimensions "[]")).toList := by
  induction dimensions with
  | zero => exact isReadAs_nil
  | succ n ih =>
    have hpair : IsErased "[]" := by decide +kernel
    rw [List.replicate_succ, List.replicate_succ, List.flatten_cons, charsOf_append, String.join_cons,
      String.toList_append]
    exact hpair.isReadAs.append ih

private theorem isErased_word (bound : TypeBound) : IsErased bound.word := by
  cases bound <;> decide +kernel

private theorem isErased_wildcard : IsErased "?" := by decide +kernel

mutual

/-- Of a type its names are left and its brackets. -/
theorem isReadAs_type : ∀ t : TypeExpression, IsReadAs (charsOf t.tokens) t.erased.toList
  | .mk first further dimensions => by
    rw [TypeExpression.tokens, TypeExpression.erased, charsOf_append, charsOf_append, String.toList_append,
      List.map_cons, toList_intercalate_cons]
    exact ((isReadAs_part first).append (isReadAs_parts further)).append (isReadAs_brackets dimensions)

private theorem isReadAs_part : ∀ p : TypePart, IsReadAs (charsOf p.tokens) p.name.text.toList
  | .plain name => by
    rw [TypePart.tokens, charsOf_cons, charsOf_nil, List.append_nil]
    exact name.isErased.isReadAs
  | .applied name first further => by
    obtain ⟨kept, hfirst⟩ := isReadAs_argument first
    obtain ⟨kept', hfurther⟩ := isReadAs_arguments further
    have hread := name.isErased.isReadAs.append (hfirst.append hfurther).bracketed
    rw [List.append_nil] at hread
    rw [TypePart.tokens, charsOf_cons, charsOf_cons, charsOf_append, charsOf_append]
    exact hread

private theorem isReadAs_parts : ∀ ps : List TypePart,
    IsReadAs (charsOf (furtherParts ps)) ((ps.map (·.name.text)).flatMap fun t => '.' :: t.toList)
  | [] => isReadAs_nil
  | p :: ps => by
    have hpoint : IsErased "." := by decide +kernel
    rw [furtherParts, charsOf_cons, charsOf_append, List.map_cons, List.flatMap_cons, List.cons_append]
    exact hpoint.isReadAs.append ((isReadAs_part p).append (isReadAs_parts ps))

/-- What is left of arguments makes no difference, as they stand in angle brackets. -/
theorem isReadAs_argument : ∀ a : TypeArgument, ∃ kept, IsReadAs (charsOf a.tokens) kept
  | .type t => ⟨_, isReadAs_type t⟩
  | .wildcard => ⟨_, isErased_wildcard.isReadAs⟩
  | .bounded bound t => ⟨_, isErased_wildcard.isReadAs.append ((isErased_word bound).isReadAs.append (isReadAs_type t))⟩

private theorem isReadAs_arguments :
    ∀ as : List TypeArgument, ∃ kept, IsReadAs (charsOf (furtherArguments as)) kept
  | [] => ⟨[], isReadAs_nil⟩
  | a :: as => by
    have hcomma : IsErased "," := by decide +kernel
    obtain ⟨kept, ha⟩ := isReadAs_argument a
    obtain ⟨kept', has⟩ := isReadAs_arguments as
    have hread := hcomma.isReadAs.append (ha.append has)
    rw [← charsOf_append, ← charsOf_cons] at hread
    exact ⟨_, hread⟩

end

/-- Erasure is exact: of a type, written with any gaps, just its names are left with the points between them and
its brackets. Of any text nothing is left that could be erased. -/
theorem erasure_is_exact :
    (∀ (t : TypeExpression) (gap : ℕ → String), (∀ i, ∀ c ∈ (gap i).toList, isBlank c) →
      erase (spell gap t.tokens) = t.erased) ∧
    ∀ written, IsErased (erase written) ∧ erase (erase written) = erase written := by
  refine ⟨fun t gap hgap => ?_, fun written => ⟨isErased_erase written, erase_erase written⟩⟩
  rw [erase, eraseFrom_spell hgap, (isReadAs_type t).outside, String.ofList_toList]

/-- Arrays of a type that is a member of a type with arguments, one of them a wildcard whose bound has arguments. -/
def nestedType : TypeExpression :=
  let name (s : String) (h : IsErased s) : TypePart := .plain ⟨s, h⟩
  let k : TypeExpression := .mk (name "K" (by decide +kernel)) [] 0
  let list : TypePart := .applied ⟨"List", by decide +kernel⟩ (.type (.mk (name "V" (by decide +kernel)) [] 1)) []
  .mk (.applied ⟨"Outer", by decide +kernel⟩ (.type k) [.bounded .upper (.mk list [] 0)])
    [.applied ⟨"Inner", by decide +kernel⟩ .wildcard []] 2

def blanksBehindWords (i : ℕ) : String := if i = 5 ∨ i = 6 then "\n " else if i = 19 then "\t" else ""

theorem erasure_is_exact_nested :
    spell blanksBehindWords nestedType.tokens = "Outer<K,?\n extends\n List<V[]>>.Inner<?>[\t][]" ∧
      erase "Outer<K,?\n extends\n List<V[]>>.Inner<?>[\t][]" = "Outer.Inner[][]" := by
  have hspelled : spell blanksBehindWords nestedType.tokens =
      "Outer<K,?\n extends\n List<V[]>>.Inner<?>[\t][]" := by decide +kernel
  refine ⟨hspelled, ?_⟩
  rw [← hspelled, erasure_is_exact.1 nestedType blanksBehindWords fun i => ?_]
  · decide +kernel
  · rw [blanksBehindWords, ← List.all_eq_true]
    split
    · decide +kernel
    · split <;> decide +kernel

end TypeText

end StructureGraph.Java
