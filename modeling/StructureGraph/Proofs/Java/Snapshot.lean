import Mathlib.Data.List.Basic
import StructureGraph.Graph.Snapshot
import StructureGraph.Java.Source
import StructureGraph.Proofs.Java.Syntax

namespace StructureGraph.Java.Syntax

open StructureGraph.Json (Value readString readKey readValue readFields skipGap)

variable {cs rest : List Char} {text : String} {v : Value}

private theorem isHex_of_hexDigit? {c : Char} {n : Nat} (h : Json.hexDigit? c = some n) : isHex c := by
  unfold Json.hexDigit? at h
  split at h
  · rename_i hc
    simp [isHex, isDecimal, hc]
  · split at h
    · rename_i hc
      simp [isHex, hc]
    · split at h
      · rename_i hc
        simp [isHex, hc]
      · cases h

theorem stringEnd_cons {c : Char} (hquote : c ≠ '"') (hslash : c ≠ '\\') (length : Nat) (cs : List Char) :
    stringEnd length (c :: cs) = stringEnd (length + 1) cs := by
  rw [stringEnd.eq_def]
  split
  · rename_i heq
    exact (hquote (List.cons.inj heq).1).elim
  · rename_i heq
    exact (hslash (List.cons.inj heq).1).elim
  · rename_i heq
    obtain ⟨-, rfl⟩ := List.cons.inj heq
    rfl
  · rename_i heq
    cases heq

private theorem stringEnd_hex {c : Char} (h : isHex c) (length : Nat) (cs : List Char) :
    stringEnd length (c :: cs) = stringEnd (length + 1) cs := by
  refine stringEnd_cons ?_ ?_ length cs <;>
    · rintro rfl
      revert h
      decide

/-- A character that is written by its number is an escape. -/
theorem stringEnd_unit {a b c d : Char} {u : Nat} (h : Json.unit? a b c d = some u) (length : Nat)
    (cs : List Char) :
    stringEnd length ('\\' :: 'u' :: a :: b :: c :: d :: cs) = stringEnd (length + 6) cs := by
  obtain ⟨_, ha, h⟩ := Option.bind_eq_some_iff.mp h
  obtain ⟨_, hb, h⟩ := Option.bind_eq_some_iff.mp h
  obtain ⟨_, hc, h⟩ := Option.bind_eq_some_iff.mp h
  obtain ⟨_, hd, -⟩ := Option.bind_eq_some_iff.mp h
  have hbrace : a ≠ '\x7b' := by
    rintro rfl
    cases ha
  have hescape : isEscape ('u' :: a :: b :: c :: d :: cs) := by
    simp [isEscape, isHex_of_hexDigit? ha, isHex_of_hexDigit? hb, isHex_of_hexDigit? hc,
      isHex_of_hexDigit? hd]
  rw [stringEnd, if_neg (by decide), if_pos hescape, stringEnd_hex (isHex_of_hexDigit? ha),
    stringEnd_hex (isHex_of_hexDigit? hb), stringEnd_hex (isHex_of_hexDigit? hc),
    stringEnd_hex (isHex_of_hexDigit? hd)]

private theorem stringEnd_simple {c e : Char} (h : Json.simpleEscape? c = some e) (length : Nat)
    (cs : List Char) : stringEnd length ('\\' :: c :: cs) = stringEnd (length + 2) cs := by
  have hc : c ∈ ['"', '\\', '/', 'b', 'f', 'n', 'r', 't'] := by
    unfold Json.simpleEscape? at h
    split at h <;> simp_all
  simp only [List.mem_cons, List.not_mem_nil, or_false] at hc
  rw [stringEnd]
  rcases hc with rfl | rfl | rfl | rfl | rfl | rfl | rfl | rfl <;> simp [isEscape]

/-- The string ends before the rest. -/
def EndsAt (cs rest : List Char) : Prop :=
  ∀ length, ∃ n, 0 < n ∧ stringEnd length cs = some (.close, length + n) ∧ cs.drop n = rest

theorem EndsAt.append {skipped : List Char}
    (hskip : ∀ length, stringEnd length (skipped ++ cs) = stringEnd (length + skipped.length) cs)
    (h : EndsAt cs rest) : EndsAt (skipped ++ cs) rest := by
  intro length
  obtain ⟨n, hn, hend, hrest⟩ := h (length + skipped.length)
  refine ⟨skipped.length + n, by omega, ?_, ?_⟩
  · rw [hskip, hend, Nat.add_assoc]
  · rw [List.drop_length_add_append, hrest]

theorem EndsAt.unit {a b c d : Char} {u : Nat} (hu : Json.unit? a b c d = some u) (h : EndsAt cs rest) :
    EndsAt ('\\' :: 'u' :: a :: b :: c :: d :: cs) rest :=
  @EndsAt.append cs rest ['\\', 'u', a, b, c, d] (fun length => stringEnd_unit hu length cs) h

/-- Both languages find the same end of a string. -/
theorem endsAt_of_readString {read : List Char} (h : readString read cs = some (key, rest)) :
    EndsAt cs rest := by
  fun_induction readString read cs with
  | case1 read cs =>
    obtain ⟨-, rfl⟩ := Prod.mk.inj (Option.some.inj h)
    exact fun length => ⟨1, Nat.one_pos, rfl, rfl⟩
  | case4 read a b c d a' b' c' d' cs u hu hhigh v hv hlow ih => exact .unit hu (.unit hv (ih h))
  | case7 read a b c d a' b' c' d' cs u hu hhigh hlow ih => exact .unit hu (ih h)
  | case10 read a b c d cs hnext u hu hplain ih => exact .unit hu (ih h)
  | case11 read c cs hpair hunit e he ih =>
    exact @EndsAt.append cs rest ['\\', c] (fun length => stringEnd_simple he length cs) (ih h)
  | case14 read c cs hquote hpair hunit hescape hplain ih =>
    simp only [Bool.or_eq_true, beq_iff_eq, not_or] at hplain
    exact @EndsAt.append cs rest [c] (fun length => stringEnd_cons hquote hplain.2 length cs) (ih h)
  | _ => cases h

private theorem isSpace_of_isGap {c : Char} (h : Json.isGap c) : isSpace c := by
  simp only [Json.isGap, Bool.or_eq_true, beq_iff_eq] at h
  rcases h with ((rfl | rfl) | rfl) | rfl <;> decide

private theorem dropWhile_isSpace {c : Char} (hskip : skipGap cs = c :: rest) (hspace : isSpace c = false) :
    cs.dropWhile isSpace = c :: rest := by
  induction cs with
  | nil => cases hskip
  | cons d cs ih =>
    rw [skipGap, List.dropWhile_cons] at hskip
    rw [List.dropWhile_cons]
    split at hskip
    · rename_i hgap
      rw [if_pos (isSpace_of_isGap hgap)]
      exact ih hskip
    · obtain ⟨rfl, rfl⟩ := List.cons.inj hskip
      rw [if_neg (by simp [hspace])]

/-- A gap of a JSON text is one of a source. -/
theorem exists_lexemesFrom {c : Char} {holes holes' : List Hole} {line n : Nat} {shape : Shape}
    {ls : List Lexeme} (hskip : skipGap cs = c :: rest) (hspace : isSpace c = false)
    (hlexeme : lexeme? holes (c :: rest) = some ((shape, n), holes')) (hn : 0 < n)
    (h : lexemesFrom holes line cs = some ls) :
    ∃ l more line', ls = l :: more ∧ l.shape = shape ∧ l.text = String.ofList ((c :: rest).take n) ∧
      lexemesFrom holes' line' ((c :: rest).drop n) = some more := by
  have hrest : cs.drop (cs.takeWhile isSpace).length = c :: rest := by
    have hsplit := @List.takeWhile_append_dropWhile _ isSpace cs
    rw [dropWhile_isSpace hskip hspace] at hsplit
    exact (congrArg (List.drop _) hsplit.symm).trans List.drop_left
  rw [lexemesFrom] at h
  simp only [hrest, List.cons_ne_nil, dite_false, hlexeme, Nat.max_eq_left hn] at h
  obtain ⟨more, hmore, rfl⟩ := Option.map_eq_some_iff.mp h
  exact ⟨_, more, _, rfl, rfl, rfl, hmore⟩

private theorem exists_attach {l : Lexeme} {ls : List Lexeme} (comments : List Tree)
    (h : l.comment? = none) :
    ∃ t, (attach comments (l :: ls)).1 = t :: (attach [] ls).1 ∧ t.shape = l.shape ∧
      t.text = l.text := by
  simp only [attach, h]
  exact ⟨_, rfl, rfl, rfl⟩

private theorem comment?_of_shape {l : Lexeme} (h : l.shape = .mark ∨ l.shape = .literal .stringLiteral) :
    l.comment? = none := by
  rw [Lexeme.comment?]
  rcases h with h | h
  · simp only [h]
  · simp only [h]
    rfl

/-- The first token of a text that goes on with a sign or a string. -/
theorem exists_token {c : Char} {holes holes' : List Hole} {line n : Nat} {shape : Shape} {ls : List Lexeme}
    (hskip : skipGap cs = c :: rest) (hspace : isSpace c = false)
    (hlexeme : lexeme? holes (c :: rest) = some ((shape, n), holes')) (hn : 0 < n)
    (hshape : shape = .mark ∨ shape = .literal .stringLiteral) (h : lexemesFrom holes line cs = some ls) :
    ∃ t more line', (attach [] ls).1 = t :: (attach [] more).1 ∧ t.shape = shape ∧
      t.text = String.ofList ((c :: rest).take n) ∧
      lexemesFrom holes' line' ((c :: rest).drop n) = some more := by
  obtain ⟨l, more, line', rfl, hl, htext, hmore⟩ := exists_lexemesFrom hskip hspace hlexeme hn h
  obtain ⟨t, ht, htshape, httext⟩ := @exists_attach l more [] (comment?_of_shape (hl ▸ hshape))
  exact ⟨t, more, line', ht, htshape.trans hl, httext.trans htext, hmore⟩

private theorem exists_lexemes {source : String} {ts : List Token} {last : List Tree} {c : Char}
    (hskip : skipGap source.toList = c :: rest) (hc : c ≠ '\uFEFF')
    (h : tokens? source = some (ts, last)) :
    ∃ ls, lexemesFrom [] 1 source.toList = some ls ∧ (attach [] ls).1 = ts := by
  obtain ⟨ls, hls, hattach⟩ := Option.map_eq_some_iff.mp h
  refine ⟨ls, ?_, congrArg Prod.fst hattach⟩
  revert hls
  split
  · rename_i cs hcs
    have hhead : skipGap ('\uFEFF' :: cs) = '\uFEFF' :: cs := rfl
    rw [hcs, hhead] at hskip
    exact (hc (List.cons.inj hskip).1.symm).elim
  · exact id

private theorem lexeme?_quote {inside after : List Char} {n : Nat}
    (hend : stringEnd 1 inside = some (.close, 1 + n)) (hskip : skipGap (inside.drop n) = ':' :: after) :
    lexeme? [] ('"' :: inside) = some ((.literal .stringLiteral, 1 + n), []) := by
  rw [lexeme?.eq_def]
  split
  · rename_i more heq
    obtain ⟨-, rfl⟩ := List.cons.inj heq
    obtain rfl : n = 1 := by
      have hlength := (Prod.mk.inj (Option.some.inj hend)).2
      omega
    cases hskip
  · rename_i heq
    obtain ⟨-, rfl⟩ := List.cons.inj heq
    rw [hend]
    rfl
  · rename_i heq
    cases heq
  · rename_i heq
    cases heq
  · rename_i heq
    cases heq
  · rename_i _ hquote _ _ _ heq
    exact (hquote (List.cons.inj heq).1.symm).elim
  · rename_i heq
    cases heq

private theorem lexeme?_colon {after : List Char} (h : after.head? ≠ some ':') :
    lexeme? [] (':' :: after) = some ((.mark, 1), []) := by
  have hmark : lexeme? [] (':' :: after) = (mark? (':' :: after)).map (·, []) := rfl
  have hdouble : "::".toList.isPrefixOf (':' :: after) = false := by
    cases after with
    | nil => rfl
    | cons d after =>
      have hd : (':' == d) = false := beq_eq_false_iff_ne.mpr fun heq => h (congrArg some heq.symm)
      have hdouble : "::".toList.isPrefixOf (':' :: d :: after) = ((':' == d) && true) := rfl
      rw [hdouble, hd, Bool.false_and]
  have hfind : marks.find? (·.toList.isPrefixOf (':' :: after)) =
      ("::" :: marks.drop 5).find? (·.toList.isPrefixOf (':' :: after)) := rfl
  rw [hmark, mark?, hfind, List.find?_cons_of_neg (Bool.not_eq_true _ ▸ hdouble)]
  rfl

private theorem parse?_bracket {source : String} (hskip : skipGap source.toList = '[' :: rest) :
    parse? source = none := by
  cases htokens : tokens? source with
  | none => simp [parse?, htokens]
  | some tokens =>
    obtain ⟨ts, last⟩ := tokens
    obtain ⟨ls, hls, rfl⟩ := exists_lexemes hskip (by decide) htokens
    obtain ⟨t, more, -, ht, hshape, htext, -⟩ := exists_token hskip (by decide) rfl Nat.one_pos (.inl rfl) hls
    refine parse?_eq_none htokens (by simp [ht]) ?_ leaves_bracket
    rw [ht]
    exact ⟨⟨hshape, htext⟩, trivial⟩

/-- A brace before a string and a colon. -/
theorem parse?_brace {source : String} {inside behind after : List Char}
    (hskip : skipGap source.toList = '\x7b' :: rest) (hinside : skipGap rest = '"' :: inside)
    (hstring : EndsAt inside behind) (hbehind : skipGap behind = ':' :: after)
    (hafter : after.head? ≠ some ':') : parse? source = none := by
  cases htokens : tokens? source with
  | none => simp [parse?, htokens]
  | some tokens =>
    obtain ⟨ts, last⟩ := tokens
    obtain ⟨ls, hls, rfl⟩ := exists_lexemes hskip (by decide) htokens
    obtain ⟨t₁, more₁, line₁, ht₁, hshape₁, htext₁, hmore₁⟩ :=
      exists_token hskip (by decide) rfl Nat.one_pos (.inl rfl) hls
    obtain ⟨n, hn, hend, hrest⟩ := hstring 1
    have hquote : lexeme? [] ('"' :: inside) = some ((.literal .stringLiteral, 1 + n), []) :=
      lexeme?_quote hend (by rw [hrest, hbehind])
    obtain ⟨t₂, more₂, line₂, ht₂, hshape₂, htext₂, hmore₂⟩ :=
      exists_token hinside (by decide) hquote (by omega) (.inr rfl) hmore₁
    have hdrop : ('"' :: inside).drop (1 + n) = behind := by
      rw [Nat.add_comm, List.drop_succ_cons, hrest]
    rw [hdrop] at hmore₂
    obtain ⟨t₃, more₃, line₃, ht₃, hshape₃, htext₃, -⟩ :=
      exists_token hbehind (by decide) (lexeme?_colon hafter) Nat.one_pos (.inl rfl) hmore₂
    refine parse?_eq_none htokens (by simp [ht₁]) ?_ leaves_brace
    rw [ht₁, ht₂, ht₃]
    refine ⟨⟨hshape₁, htext₁⟩, ⟨hshape₂, ?_⟩, ⟨hshape₃, htext₃⟩, trivial⟩
    rw [htext₂, String.toList_ofList, Nat.add_comm]
    rfl

private theorem head?_of_readValue {n : Nat} {r : Value × List Char} (h : readValue n cs = some r) :
    cs.head? ≠ some ':' := by
  intro hhead
  obtain ⟨rest, rfl⟩ : ∃ rest, cs = ':' :: rest := by
    cases cs with
    | nil => cases hhead
    | cons c rest => exact ⟨rest, by rw [Option.some.inj hhead]⟩
  cases n with
  | zero => cases h
  | succ n => cases h

private theorem exists_of_addField {name : Option String} {w o : Value}
    (h : Value.addField name w o ≠ .garbled) :
    ∃ key, name = some key := by
  cases name with
  | some key => exact ⟨key, rfl⟩
  | none => cases o <;> exact (h rfl).elim

private theorem readString_of_readText (h : Json.readText cs = some (some key, rest)) :
    readString [] cs = some (key, rest) := by
  rw [Json.readText] at h
  split at h
  · rename_i hread
    cases h
    exact hread
  · obtain ⟨_, -, hpair⟩ := Option.map_eq_some_iff.mp h
    cases hpair

private theorem exists_of_readKey {after : List Char} (h : readKey cs = some (some key, after)) :
    ∃ inside behind, skipGap cs = '"' :: inside ∧ EndsAt inside behind ∧ skipGap behind = ':' :: after := by
  rw [readKey] at h
  split at h
  · rename_i inside hinside
    split at h
    · cases h
    · rename_i behind htext
      split at h
      · rename_i hbehind
        cases h
        exact ⟨inside, behind, hinside, endsAt_of_readString (readString_of_readText htext), hbehind⟩
      · cases h
  · cases h

/-- What makes an object begins with a name and a colon. -/
theorem exists_of_readFields {n : Nat} (h : readFields n cs = some (v, rest)) (hv : v ≠ .garbled) :
    ∃ inside behind after, skipGap cs = '"' :: inside ∧ EndsAt inside behind ∧
      skipGap behind = ':' :: after ∧ after.head? ≠ some ':' := by
  cases n with
  | zero => cases h
  | succ n =>
    rw [readFields] at h
    split at h
    · cases h
    · rename_i name after hkey
      split at h
      · cases h
      · rename_i w behind hvalue
        have hname : ∃ o, Value.addField name w o = v := by
          split at h
          · exact ⟨_, (Prod.mk.inj (Option.some.inj h)).1⟩
          · obtain ⟨_, -, hpair⟩ := Option.map_eq_some_iff.mp h
            exact ⟨_, (Prod.mk.inj hpair).1⟩
          · cases h
        obtain ⟨o, rfl⟩ := hname
        obtain ⟨key, rfl⟩ := exists_of_addField hv
        obtain ⟨inside, behind, hinside, hstring, hbehind⟩ := exists_of_readKey hkey
        exact ⟨inside, behind, after, hinside, hstring, hbehind, head?_of_readValue hvalue⟩

private theorem exists_number_of_readUnsigned {sign : List Char}
    (h : Json.readUnsigned sign cs = some (v, rest)) : ∃ text, v = .number text := by
  obtain ⟨_, -, h⟩ := Option.bind_eq_some_iff.mp h
  obtain ⟨_, -, h⟩ := Option.bind_eq_some_iff.mp h
  obtain ⟨_, -, h⟩ := Option.bind_eq_some_iff.mp h
  exact ⟨_, (Prod.mk.inj (Option.some.inj h)).1.symm⟩

private theorem exists_number (h : Json.readNumber cs = some (v, rest)) : ∃ text, v = .number text := by
  rw [Json.readNumber.eq_def] at h
  split at h
  · exact exists_number_of_readUnsigned h
  · exact exists_number_of_readUnsigned h

/-- A JSON value with something in it, or a list, is no source. -/
theorem parse?_of_readValue {source : String} {n : Nat}
    (h : readValue n source.toList = some (v, rest))
    (hv : (∃ items, v = .array items) ∨ ∃ f fs, v = .object (f :: fs)) : parse? source = none := by
  have hplain : ∀ {cs w} {word : String}, Json.readWord word w cs = some (v, rest) → v = w := by
    intro cs w word hword
    obtain ⟨_, -, heq⟩ := Option.map_eq_some_iff.mp hword
    exact (Prod.mk.inj heq).1.symm
  cases n with
  | zero => cases h
  | succ n =>
    rw [readValue] at h
    split at h
    · simp [hplain h] at hv
    · simp [hplain h] at hv
    · simp [hplain h] at hv
    · obtain ⟨⟨text?, _⟩, -, heq⟩ := Option.map_eq_some_iff.mp h
      rw [← (Prod.mk.inj heq).1] at hv
      cases text? <;> simp [Value.ofText?] at hv
    · rename_i hskip
      exact parse?_bracket hskip
    · rename_i hskip
      split at h
      · obtain ⟨rfl, -⟩ := Prod.mk.inj (Option.some.inj h)
        simp at hv
      · have hclear : v ≠ .garbled := by
          rintro rfl
          simp at hv
        obtain ⟨inside, behind, after, hinside, hstring, hbehind, hafter⟩ := exists_of_readFields h hclear
        exact parse?_brace hskip hinside hstring hbehind hafter
    · obtain ⟨text, rfl⟩ := exists_number h
      simp at hv

/-- What a snapshot file says is said by an object that is not empty, or by a list. -/
theorem of_contents? {c : Graph.Snapshot.Contents} (h : Graph.Snapshot.contents? v = some c) :
    (∃ items, v = .array items) ∨ ∃ f fs, v = .object (f :: fs) := by
  cases v with
  | array items => exact .inl ⟨items, rfl⟩
  | object fields =>
    cases fields with
    | nil => cases h
    | cons f fs => exact .inr ⟨f, fs, rfl⟩
  | _ => cases h

/-- No text is both a snapshot and a source. -/
theorem parse?_of_ofText {g : Graph.PropertyGraph} (h : Graph.Snapshot.ofText text = .ok g) :
    parse? text = none := by
  rw [Graph.Snapshot.ofText] at h
  split at h
  · rename_i c hc
    obtain ⟨v, hv, hcontents⟩ := Option.bind_eq_some_iff.mp hc
    rw [Json.read?] at hv
    split at hv
    · rename_i hread
      split at hv
      · rw [Option.some.inj hv] at hread
        exact parse?_of_readValue hread (of_contents? hcontents)
      · cases hv
    · cases hv
  · cases h

end StructureGraph.Java.Syntax
