import Mathlib.Data.List.Basic
import Mathlib.Tactic.IntervalCases
import StructureGraph.Json.Printer
import StructureGraph.Json.Reader

namespace StructureGraph.Json

private theorem hexDigit?_hexChar {n : Nat} (h : n < 16) : hexDigit? (hexChar n) = some n := by
  interval_cases n <;> decide

private theorem unit?_escaped {n : Nat} (h : n < 32) :
    unit? '0' '0' (hexChar (n / 16)) (hexChar (n % 16)) = some n := by
  have hzero : hexDigit? '0' = some 0 := by decide
  have hhigh := hexDigit?_hexChar (n := n / 16) (by omega)
  have hlow := hexDigit?_hexChar (n := n % 16) (by omega)
  simp only [unit?, hzero, hhigh, hlow, Option.bind_eq_bind, Option.bind_some, pure,
    Option.some.injEq]
  omega

/-- A control character that is written by its number. -/
private theorem readString_numbered (text cs : List Char) {c : Char} (h : c.toNat < 32) :
    readString text ('\\' :: 'u' :: '0' :: '0' :: hexChar (c.toNat / 16) ::
      hexChar (c.toNat % 16) :: cs) = readString (c :: text) cs := by
  have hu := unit?_escaped h
  have hhigh : isHighSurrogate c.toNat = false := by
    simp [isHighSurrogate]
    omega
  have hlow : isLowSurrogate c.toNat = false := by
    simp [isLowSurrogate]
    omega
  rw [readString.eq_def]
  split <;> rename_i heq <;> cases heq
  · simp [hu, hhigh, hlow, Char.ofNat_toNat]
  · simp [hu, hhigh, hlow, Char.ofNat_toNat]
  · rename_i hne
    exact (hne _ _ _ _ _ rfl rfl).elim
  · rename_i hne
    exact (hne _ _ rfl rfl).elim

private theorem readString_escape (text cs : List Char) (c : Char) :
    readString text (escape c ++ cs) = readString (c :: text) cs := by
  unfold escape
  split
  case h_8 =>
    split
    · rename_i h
      exact readString_numbered text cs h
    · rename_i h
      rw [List.singleton_append, readString.eq_def]
      split <;> simp_all
  all_goals
    simp only [List.cons_append, List.nil_append]
    rw [readString.eq_def]
    simp [simpleEscape?]

private theorem readString_escaped (text cs rest : List Char) :
    readString text (cs.flatMap escape ++ '"' :: rest) =
      some (String.ofList (text.reverse ++ cs), rest) := by
  induction cs generalizing text with
  | nil => simp [readString]
  | cons c cs ih => simp [readString_escape, ih]

private theorem readText_quote (s : String) (rest : List Char) :
    readText (s.toList.flatMap escape ++ '"' :: rest) = some (some s, rest) := by
  simp [readText, readString_escaped]

/-- The text does not go on with a number. -/
def EndsNumber (rest : List Char) : Prop :=
  ∀ c ∈ rest.head?, c.isDigit = false ∧ c ≠ '.' ∧ c ≠ 'e' ∧ c ≠ 'E'

theorem takeDigits_append {ds rest : List Char} (hds : ∀ c ∈ ds, c.isDigit)
    (hrest : EndsNumber rest) : takeDigits (ds ++ rest) = (ds, rest) := by
  have htake : rest.takeWhile Char.isDigit = [] ∧ rest.dropWhile Char.isDigit = rest := by
    cases rest with
    | nil => simp
    | cons c cs => simp [(hrest c rfl).1]
  rw [takeDigits, List.takeWhile_append_of_pos hds, List.dropWhile_append_of_pos hds, htake.1,
    htake.2, List.append_nil]

private theorem isDigit_toDigits (n : Nat) : ∀ c ∈ Nat.toDigits 10 n, c.isDigit :=
  fun _ hc => Nat.isDigit_of_mem_toDigits (by decide) (by decide) hc

private theorem exists_toDigits (n : Nat) : ∃ c ds, Nat.toDigits 10 n = c :: ds ∧ c.isDigit := by
  cases hd : Nat.toDigits 10 n with
  | nil => exact (Nat.toDigits_ne_nil hd).elim
  | cons c ds => exact ⟨c, ds, rfl, isDigit_toDigits n c (by simp [hd])⟩

/-- Only zero is written with a zero in front. -/
theorem head_toDigits {n : Nat} (hn : 0 < n) : (Nat.toDigits 10 n).head? ≠ some '0' := by
  induction n using Nat.strong_induction_on with
  | _ n ih =>
    rcases Nat.lt_or_ge n 10 with h | h
    · interval_cases n <;> decide
    · rw [Nat.toDigits_of_base_le (by decide) h, List.head?_append]
      have hfront := ih (n / 10) (by omega) (by omega)
      cases hd : (Nat.toDigits 10 (n / 10)).head? with
      | none => simp [Nat.toDigits_ne_nil] at hd
      | some c => simpa [hd] using hfront

private theorem readWhole_toDigits (n : Nat) {rest : List Char} (hrest : EndsNumber rest) :
    readWhole (Nat.toDigits 10 n ++ rest) = some (Nat.toDigits 10 n, rest) := by
  rcases Nat.eq_zero_or_pos n with rfl | hn
  · rfl
  · have hhead := head_toDigits hn
    have htake := takeDigits_append (isDigit_toDigits n) hrest
    obtain ⟨c, ds, hd, -⟩ := exists_toDigits n
    rw [hd] at hhead htake ⊢
    have hc : c ≠ '0' := by simpa using hhead
    rw [List.cons_append] at htake ⊢
    unfold readWhole
    split
    · rename_i heq
      exact (hc (List.cons.inj heq).1).elim
    · rw [htake]

private theorem readFraction_end {rest : List Char} (hrest : EndsNumber rest) :
    readFraction rest = some ([], rest) := by
  unfold readFraction
  split
  · exact ((hrest '.' rfl).2.1 rfl).elim
  · rfl

private theorem readExponent_end {rest : List Char} (hrest : EndsNumber rest) :
    readExponent rest = some ([], rest) := by
  cases rest with
  | nil => rfl
  | cons c cs =>
    obtain ⟨-, -, he, hE⟩ := hrest c rfl
    simp [readExponent, he, hE]

private theorem readNumber_toDigits (n : Nat) {rest : List Char} (hrest : EndsNumber rest) :
    readNumber (Nat.toDigits 10 n ++ rest) = some (.ofNat n, rest) := by
  have hread : readUnsigned [] (Nat.toDigits 10 n ++ rest) = some (.ofNat n, rest) := by
    simp [readUnsigned, readWhole_toDigits n hrest, readFraction_end hrest, readExponent_end hrest,
      Value.ofNat, Nat.repr_eq_ofList_toDigits]
  unfold readNumber
  split
  · rename_i cs heq
    obtain ⟨c, ds, hd, hc⟩ := exists_toDigits n
    rw [hd] at heq
    rw [(List.cons.inj heq).1] at hc
    exact absurd hc (by decide)
  · exact hread

mutual

/-- All numbers are whole, and written with digits alone, and nothing is garbled. -/
def Value.IsWhole : Value → Prop
  | .number text => ∃ n : Nat, text = toString n
  | .array items => itemsWhole items
  | .object fields => fieldsWhole fields
  | .garbled => False
  | _ => True

def itemsWhole : List Value → Prop
  | [] => True
  | v :: vs => v.IsWhole ∧ itemsWhole vs

def fieldsWhole : List (String × Value) → Prop
  | [] => True
  | (_, v) :: fs => v.IsWhole ∧ fieldsWhole fs

end

theorem itemsWhole_iff (vs : List Value) : itemsWhole vs ↔ ∀ v ∈ vs, v.IsWhole := by
  induction vs with
  | nil => simp [itemsWhole]
  | cons v vs ih => simp [itemsWhole, ih]

theorem fieldsWhole_iff (fs : List (String × Value)) : fieldsWhole fs ↔ ∀ f ∈ fs, f.2.IsWhole := by
  induction fs with
  | nil => simp [fieldsWhole]
  | cons f fs ih => simp [fieldsWhole, ih]

/-- What stands at the front of a value: neither a blank nor a bracket that closes. -/
theorem compactChars_front : ∀ {v : Value}, v.IsWhole →
    ∃ c cs, compactChars v = c :: cs ∧ isGap c = false ∧ c ≠ ']'
  | .null, _ => ⟨_, _, rfl, by decide, by decide⟩
  | .bool true, _ => ⟨_, _, rfl, by decide, by decide⟩
  | .bool false, _ => ⟨_, _, rfl, by decide, by decide⟩
  | .string _, _ => ⟨_, _, rfl, by decide, by decide⟩
  | .array _, _ => ⟨_, _, rfl, by decide, by decide⟩
  | .object _, _ => ⟨_, _, rfl, by decide, by decide⟩
  | .garbled, hv => hv.elim
  | .number _, ⟨n, rfl⟩ => by
    obtain ⟨c, ds, hd, hc⟩ := exists_toDigits n
    refine ⟨c, ds, by simp [compactChars, hd], ?_, ?_⟩
    · by_contra hgap
      simp only [isGap, Bool.not_eq_false, Bool.or_eq_true, beq_iff_eq] at hgap
      rcases hgap with ((rfl | rfl) | rfl) | rfl <;> exact absurd hc (by decide)
    · intro heq
      rw [heq] at hc
      exact absurd hc (by decide)

theorem skipGap_cons {c : Char} (h : isGap c = false) (cs : List Char) :
    skipGap (c :: cs) = c :: cs := by
  simp [skipGap, h]

theorem endsNumber_cons {c : Char} (h : c = ',' ∨ c = ']' ∨ c = '\x7d' ∨ c = '\n')
    (cs : List Char) : EndsNumber (c :: cs) := by
  intro d hd
  obtain rfl : c = d := Option.some.inj hd
  rcases h with rfl | rfl | rfl | rfl <;> decide

private theorem compactItems_front {v : Value} (vs : List Value) (hv : v.IsWhole) :
    ∃ c cs, compactItems (v :: vs) = c :: cs ∧ isGap c = false ∧ c ≠ ']' := by
  obtain ⟨c, cs, hcs, hc⟩ := compactChars_front hv
  cases vs with
  | nil => exact ⟨c, cs, hcs, hc⟩
  | cons w ws => exact ⟨c, cs ++ ',' :: compactItems (w :: ws), by simp [compactItems, hcs], hc⟩

private theorem readKey_quote (k : String) (rest : List Char) :
    readKey (quote k ++ ':' :: rest) = some (some k, rest) := by
  have hread := readText_quote k (':' :: rest)
  simp only [readKey, quote, List.cons_append, List.append_assoc, List.nil_append]
  rw [skipGap_cons (by decide)]
  simp only [hread]
  rw [skipGap_cons (by decide)]
  rfl

private theorem compactFields_front (k : String) (v : Value) (fs : List (String × Value)) :
    ∃ cs, compactFields ((k, v) :: fs) = '"' :: cs := by
  cases fs <;> exact ⟨_, by simp only [compactFields, quote, List.cons_append]; rfl⟩

private theorem readValue_number (m n : Nat) {rest : List Char} (hrest : EndsNumber rest) :
    readValue (m + 1) (Nat.toDigits 10 n ++ rest) = some (.ofNat n, rest) := by
  have hread := readNumber_toDigits n hrest
  obtain ⟨c, cs, hcs, hgap, -⟩ := compactChars_front (v := .ofNat n) ⟨n, rfl⟩
  have hcs : Nat.toDigits 10 n = c :: cs := by simpa [compactChars, Value.ofNat] using hcs
  have hc := isDigit_toDigits n c (by simp [hcs])
  rw [hcs, List.cons_append] at hread ⊢
  rw [readValue, skipGap_cons hgap]
  split
  case h_7 => exact hread
  all_goals
    rename_i heq
    rw [(List.cons.inj heq).1] at hc
    exact absurd hc (by decide)

mutual

/-- A written value is read back, if twice its length bounds the number of steps. -/
theorem readValue_compactChars : ∀ (v : Value) (n : Nat) (rest : List Char), v.IsWhole →
    EndsNumber rest → 2 * (compactChars v).length ≤ n + 1 →
    readValue n (compactChars v ++ rest) = some (v, rest)
  | v, 0, rest, hv, _, hn => by
    obtain ⟨c, cs, hcs, -⟩ := compactChars_front hv
    rw [hcs, List.length_cons] at hn
    omega
  | .null, n + 1, rest, _, _, _ => by
    simp [compactChars, readValue, skipGap, isGap, readWord, List.isPrefixOf?]
  | .bool true, n + 1, rest, _, _, _ => by
    simp [compactChars, readValue, skipGap, isGap, readWord, List.isPrefixOf?]
  | .bool false, n + 1, rest, _, _, _ => by
    simp [compactChars, readValue, skipGap, isGap, readWord, List.isPrefixOf?]
  | .number _, m + 1, rest, ⟨n, rfl⟩, hrest, _ => by
    simpa [compactChars, Value.ofNat] using readValue_number m n hrest
  | .string s, n + 1, rest, _, _, _ => by
    simp [compactChars, quote, readValue, skipGap, isGap, readText_quote, Value.ofText?]
  | .array [], n + 1, rest, _, _, _ => by
    simp [compactChars, compactItems, readValue, skipGap, isGap]
  | .array (v :: vs), n + 1, rest, hv, _, hn => by
    have hn : 2 * (compactItems (v :: vs)).length ≤ n := by
      simp only [compactChars, List.length_cons, List.length_append, List.length_nil] at hn
      omega
    have hread := readItems_compactItems v vs n rest hv hn
    obtain ⟨c, cs, hcs, hgap, hc⟩ := compactItems_front vs hv.1
    rw [hcs] at hread
    simp only [compactChars, hcs, List.cons_append, List.append_assoc, List.nil_append]
      at hread ⊢
    rw [readValue, skipGap_cons (by decide)]
    simp only [skipGap_cons hgap]
    split
    · rename_i heq
      exact (hc (List.cons.inj heq).1).elim
    · simp [hread]
  | .object [], n + 1, rest, _, _, _ => by
    simp [compactChars, compactFields, readValue, skipGap, isGap]
  | .object ((k, v) :: fs), n + 1, rest, hv, _, hn => by
    have hn : 2 * (compactFields ((k, v) :: fs)).length ≤ n := by
      simp only [compactChars, List.length_cons, List.length_append, List.length_nil] at hn
      omega
    have hread := readFields_compactFields k v fs n rest hv hn
    obtain ⟨cs, hcs⟩ := compactFields_front k v fs
    rw [hcs] at hread
    simp only [compactChars, hcs, List.cons_append, List.append_assoc, List.nil_append]
      at hread ⊢
    rw [readValue, skipGap_cons (by decide)]
    simp only [skipGap_cons (c := '"') (by decide)]
    exact hread
  | .garbled, _ + 1, _, hv, _, _ => hv.elim

private theorem readItems_compactItems : ∀ (v : Value) (vs : List Value) (n : Nat) (rest : List Char),
    itemsWhole (v :: vs) → 2 * (compactItems (v :: vs)).length ≤ n →
    readItems n (compactItems (v :: vs) ++ ']' :: rest) = some (v :: vs, rest)
  | v, vs, 0, rest, hv, hn => by
    obtain ⟨c, cs, hcs, -⟩ := compactItems_front vs hv.1
    rw [hcs, List.length_cons] at hn
    omega
  | v, [], n + 1, rest, hv, hn => by
    have hread := readValue_compactChars v n (']' :: rest) hv.1 (endsNumber_cons (by simp) _) hn
    simp only [compactItems, readItems, hread]
    rw [skipGap_cons (by decide)]
    rfl
  | v, w :: ws, n + 1, rest, hv, hn => by
    simp only [compactItems, List.length_append, List.length_cons] at hn
    have hread := readValue_compactChars v n (',' :: (compactItems (w :: ws) ++ ']' :: rest)) hv.1
      (endsNumber_cons (by simp) _) (by omega)
    have hrest := readItems_compactItems w ws n rest hv.2 (by omega)
    simp only [compactItems, List.append_assoc, List.cons_append, readItems, hread]
    rw [skipGap_cons (by decide)]
    simp [hrest]

private theorem readFields_compactFields : ∀ (k : String) (v : Value) (fs : List (String × Value)) (n : Nat)
    (rest : List Char), fieldsWhole ((k, v) :: fs) →
    2 * (compactFields ((k, v) :: fs)).length ≤ n →
    readFields n (compactFields ((k, v) :: fs) ++ '\x7d' :: rest) = some (.object ((k, v) :: fs), rest)
  | k, v, fs, 0, rest, hv, hn => by
    obtain ⟨cs, hcs⟩ := compactFields_front k v fs
    rw [hcs, List.length_cons] at hn
    omega
  | k, v, [], n + 1, rest, hv, hn => by
    simp only [compactFields, List.length_append, List.length_cons] at hn
    have hread := readValue_compactChars v n ('\x7d' :: rest) hv.1 (endsNumber_cons (by simp) _)
      (by omega)
    simp only [compactFields, List.append_assoc, List.cons_append, readFields, readKey_quote, hread]
    rw [skipGap_cons (by decide)]
    rfl
  | k, v, (k', v') :: fs, n + 1, rest, hv, hn => by
    simp only [compactFields, List.length_append, List.length_cons] at hn
    have hread := readValue_compactChars v n
      (',' :: (compactFields ((k', v') :: fs) ++ '\x7d' :: rest))
      hv.1 (endsNumber_cons (by simp) _) (by omega)
    have hrest := readFields_compactFields k' v' fs n rest hv.2 (by omega)
    simp only [compactFields, List.append_assoc, List.cons_append, readFields, readKey_quote, hread]
    rw [skipGap_cons (by decide)]
    simp [hrest, Value.addField]

end

theorem read?_compact {v : Value} (h : v.IsWhole) : read? (compact v ++ "\n") = some v := by
  have hread := readValue_compactChars v (2 * (compact v ++ "\n").length + 2) ['\n'] h
    (endsNumber_cons (by simp) _) (by
      rw [compact, String.length_append, String.length_ofList]
      omega)
  have htext : (compact v ++ "\n").toList = compactChars v ++ ['\n'] := by
    simp [compact]
  rw [read?, htext, hread]
  exact if_pos (by decide)

end StructureGraph.Json
