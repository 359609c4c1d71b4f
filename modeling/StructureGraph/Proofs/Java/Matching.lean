import StructureGraph.Java.Syntax.Grammar

namespace StructureGraph.Java.Syntax

namespace Terminal

variable {terminal : Terminal} {ts rest : List Token} {piece : Piece}

/-- The kind of the leaf that is taken. -/
def kind : Terminal → Kind
  | word k _ | mark k _ | name k _ | literal k => k
  | operator _ | joined _ => .token

private theorem subset_of_dropGlued? {ss : List String} (h : Token.dropGlued? ss ts = some rest) :
    rest ⊆ ts := by
  fun_induction Token.dropGlued? ss ts with
  | case1 ts => exact Option.some.inj h ▸ List.Subset.refl _
  | case2 s ss t ts hglued ih => exact List.subset_cons_of_subset t (ih h)
  | case3 s ss t ts hglued => cases h
  | case4 s ss => cases h

private theorem subset_of_angleRun (ts : List Token) : (Token.angleRun ts).2 ⊆ ts := by
  fun_induction Token.angleRun ts with
  | case1 => exact List.Subset.refl _
  | case2 t ts hglued run rest hrun ih =>
    rw [hrun] at ih
    exact List.subset_cons_of_subset t ih
  | case3 t ts hglued hequal => exact List.subset_cons_self t ts
  | case4 t ts hglued hequal => exact List.Subset.refl _

/-- What is taken is a leaf, with the comments before its first token. -/
theorem take?_spec (h : terminal.take? ts = some (piece, rest)) :
    rest ⊆ ts ∧ (∃ t ∈ ts, piece.comments = t.comments) ∧ piece.role = none ∧
      ∃ gap text line, piece.tree = .leaf terminal.kind gap text line := by
  cases ts with
  | nil => cases h
  | cons t ts =>
    have hfirst : t ∈ t :: ts := List.mem_cons_self
    cases terminal with
    | operator s =>
      simp only [take?, Option.ite_none_right_eq_some, Option.some.injEq, Prod.mk.injEq] at h
      obtain ⟨-, -, rfl, rfl⟩ := h
      refine ⟨?_, ⟨t, hfirst, rfl⟩, rfl, _, _, _, rfl⟩
      rw [Token.operatorAt]
      split
      · exact List.subset_cons_of_subset t (subset_of_angleRun ts)
      · exact List.subset_cons_self t ts
    | joined texts =>
      cases texts with
      | nil => cases h
      | cons s ss =>
        simp only [take?, Option.ite_none_right_eq_some, Option.map_eq_some_iff, Prod.mk.injEq] at h
        obtain ⟨-, rest', hrest, rfl, rfl⟩ := h
        exact ⟨List.subset_cons_of_subset t (subset_of_dropGlued? hrest), ⟨t, hfirst, rfl⟩, rfl, _, _, _, rfl⟩
    | word k s | mark k s | name k s | literal k =>
      simp only [take?, Option.ite_none_right_eq_some, Option.some.injEq, Prod.mk.injEq] at h
      obtain ⟨-, rfl, rfl⟩ := h
      exact ⟨List.subset_cons_self t ts, ⟨t, hfirst, rfl⟩, rfl, _, _, _, rfl⟩

end Terminal

/-- A comment by itself. -/
def Tree.IsCommentLeaf (c : Tree) : Prop := ∃ k gap text line, c = leaf k gap text line ∧ k.isComment

private theorem isCommentLeaf_of_comment? {l : Lexeme} {c : Tree} (h : l.comment? = some c) :
    c.IsCommentLeaf := by
  rw [Lexeme.comment?] at h
  split at h
  · rename_i k _
    obtain ⟨hk, heq⟩ := Option.ite_none_right_eq_some.mp h
    exact ⟨k, _, _, _, (Option.some.inj heq).symm, hk⟩
  · cases h

private theorem isCommentLeaf_of_attach {comments : List Tree} (hcomments : ∀ c ∈ comments, c.IsCommentLeaf)
    (ls : List Lexeme) : (∀ t ∈ (attach comments ls).1, ∀ c ∈ t.comments, c.IsCommentLeaf) ∧
      ∀ c ∈ (attach comments ls).2, c.IsCommentLeaf := by
  induction ls generalizing comments with
  | nil => exact ⟨fun _ ht => absurd ht List.not_mem_nil, hcomments⟩
  | cons l ls ih =>
    rw [attach]
    cases hc : l.comment? with
    | some c =>
      refine ih (List.forall_mem_append.mpr ⟨hcomments, ?_⟩)
      simpa using isCommentLeaf_of_comment? hc
    | none =>
      obtain ⟨htokens, hlast⟩ := @ih [] nofun
      exact ⟨List.forall_mem_cons.mpr ⟨hcomments, htokens⟩, hlast⟩

theorem isCommentLeaf_of_tokens? {source : String} {tokens : List Token} {last : List Tree}
    (h : tokens? source = some (tokens, last)) :
    (∀ t ∈ tokens, ∀ c ∈ t.comments, c.IsCommentLeaf) ∧ ∀ c ∈ last, c.IsCommentLeaf := by
  obtain ⟨ls, -, hattach⟩ := Option.map_eq_some_iff.mp h
  have hleaves := @isCommentLeaf_of_attach [] nofun ls
  rwa [hattach] at hleaves

/-- A child of a node is one of its pieces or a comment before one. -/
theorem mem_weave {ps : List Piece} {x : Option Role × Tree} (h : x ∈ weave ps) :
    (∃ p ∈ ps, x = (p.role, p.tree)) ∨ ∃ p ∈ ps, ∃ c ∈ p.comments, x = (none, c) := by
  cases ps with
  | nil => cases h
  | cons p ps =>
    rcases List.mem_cons.mp h with rfl | h
    · exact .inl ⟨p, List.mem_cons_self, rfl⟩
    · obtain ⟨q, hq, h⟩ := List.mem_flatMap.mp h
      rcases List.mem_append.mp h with h | h
      · obtain ⟨c, hc, rfl⟩ := List.mem_map.mp h
        exact .inr ⟨q, List.mem_cons_of_mem p hq, c, hc, rfl⟩
      · exact .inl ⟨q, List.mem_cons_of_mem p hq, List.mem_singleton.mp h⟩

namespace Pattern

variable {ρ : Type}

/-- What patterns match, were the alternatives not ordered: the pieces built before and the tokens there
are, the pieces that are built and the tokens that are left over. -/
inductive Matches (rules : ρ → Pattern ρ) :
    Pattern ρ → List Piece → List Token → List Piece → List Token → Prop
  | empty {built ts} : Matches rules .empty built ts [] ts
  | take {terminal built ts piece rest} : terminal.take? ts = some (piece, rest) →
    Matches rules (.take terminal) built ts [piece] rest
  | rule {r built ts a rest} : Matches rules (rules r) [] ts a rest → Matches rules (.rule r) built ts a rest
  | seq {p q built ts a between b rest} : Matches rules p built ts a between →
    Matches rules q built between b rest → Matches rules (.seq p q) built ts (a ++ b) rest
  | left {p q built ts a rest} : Matches rules p built ts a rest → Matches rules (.alt p q) built ts a rest
  | right {p q built ts a rest} : Matches rules q built ts a rest → Matches rules (.alt p q) built ts a rest
  | none {p built ts} : Matches rules (.many p) built ts [] ts
  | more {p built ts a between b rest} : Matches rules p built ts a between →
    Matches rules (.many p) built between b rest → Matches rules (.many p) built ts (a ++ b) rest
  | unless {p q built ts a rest} : Matches rules q built ts a rest →
    Matches rules (.unless p q) built ts a rest
  | role {r p built ts a rest} : Matches rules p built ts a rest →
    Matches rules (.role r p) built ts (a.map fun x => { x with role := some r }) rest
  | node {k p built ts a rest} : Matches rules p built ts a rest →
    Matches rules (.node k p) built ts [Piece.node k a] rest
  | held {kinds built ts} : Matches rules (.held kinds) built ts built ts
  | still {step built ts} : Matches rules (.extend step) built ts built ts
  | extended {step built ts a between b rest} : Matches rules step built ts a between →
    Matches rules (.extend step) a between b rest → Matches rules (.extend step) built ts b rest
  | upon {base p built ts a between b rest} : Matches rules base built ts a between →
    Matches rules p a between b rest → Matches rules (.upon base p) built ts b rest

variable {rules : ρ → Pattern ρ} {p : Pattern ρ} {built a : List Piece} {ts rest : List Token}

theorem matches_of_matchWith {again : Pattern ρ → List Piece → List Token → Match}
    (hagain : ∀ p built ts a rest, again p built ts = some (a, rest) → Matches rules p built ts a rest)
    (h : matchWith rules again p built ts = some (a, rest)) : Matches rules p built ts a rest := by
  -- By induction on the pattern. Rules and repetitions are left to `again`.
  induction p generalizing built ts a rest with
  | empty =>
    obtain ⟨rfl, rfl⟩ := Prod.mk.inj (Option.some.inj h)
    exact .empty
  | take terminal =>
    obtain ⟨⟨piece, left⟩, htake, heq⟩ := Option.map_eq_some_iff.mp h
    obtain ⟨rfl, rfl⟩ := Prod.mk.inj heq
    exact .take htake
  | rule r => exact .rule (hagain _ _ _ _ _ h)
  | seq p q ihp ihq =>
    rw [matchWith] at h
    split at h
    · cases h
    · rename_i hp
      obtain ⟨⟨b, left⟩, hq, heq⟩ := Option.map_eq_some_iff.mp h
      obtain ⟨rfl, rfl⟩ := Prod.mk.inj heq
      exact .seq (ihp hp) (ihq hq)
  | alt p q ihp ihq =>
    rw [matchWith] at h
    split at h
    · exact .right (ihq h)
    · exact .left (ihp h)
  | many p ih =>
    rw [matchWith] at h
    split at h
    · obtain ⟨rfl, rfl⟩ := Prod.mk.inj (Option.some.inj h)
      exact .none
    · rename_i hp
      obtain ⟨⟨b, left⟩, hmany, heq⟩ := Option.map_eq_some_iff.mp h
      obtain ⟨rfl, rfl⟩ := Prod.mk.inj heq
      exact .more (ih hp) (hagain _ _ _ _ _ hmany)
  | «unless» p q ihp ihq =>
    rw [matchWith] at h
    split at h
    · exact .unless (ihq h)
    · cases h
  | role r p ih =>
    obtain ⟨⟨b, left⟩, hp, heq⟩ := Option.map_eq_some_iff.mp h
    obtain ⟨rfl, rfl⟩ := Prod.mk.inj heq
    exact .role (ih hp)
  | node k p ih =>
    obtain ⟨⟨b, left⟩, hp, heq⟩ := Option.map_eq_some_iff.mp h
    obtain ⟨rfl, rfl⟩ := Prod.mk.inj heq
    exact .node (ih hp)
  | held kinds =>
    rw [matchWith] at h
    split at h
    · obtain ⟨rfl, rfl⟩ := Prod.mk.inj (Option.some.inj h)
      exact .held
    · cases h
  | extend step ih =>
    rw [matchWith] at h
    split at h
    · obtain ⟨rfl, rfl⟩ := Prod.mk.inj (Option.some.inj h)
      exact .still
    · rename_i hstep
      exact .extended (ih hstep) (hagain _ _ _ _ _ h)
  | upon base p ihbase ihp =>
    rw [matchWith] at h
    split at h
    · cases h
    · rename_i hbase
      exact .upon (ihbase hbase) (ihp h)

theorem matches_of_matchDepth {d : Nat} (h : matchDepth rules d p built ts = some (a, rest)) :
    Matches rules p built ts a rest := by
  induction d generalizing p built ts a rest with
  | zero => cases h
  | succ d ih => exact matches_of_matchWith (fun _ _ _ _ _ hagain => ih hagain) h

end Pattern

namespace Pattern

variable {ρ : Type} {check : Pattern ρ → Bool} {rules : ρ → Pattern ρ}

/-- A pattern and the patterns it is made of pass a check, but for those that must not match. -/
def Passes (check : Pattern ρ → Bool) (p : Pattern ρ) : Bool :=
  check p &&
    match p with
    | seq p q | alt p q | upon p q => p.Passes check && q.Passes check
    | .unless _ p | many p | role _ p | node _ p | extend p => p.Passes check
    | empty | take _ | rule _ | held _ => true

private theorem passes_here {p : Pattern ρ} (h : p.Passes check) : check p := by
  unfold Passes at h
  exact (Bool.and_eq_true_iff.mp h).1

private theorem passes_inside {p : Pattern ρ} (h : p.Passes check) :
    match p with
    | seq p q | alt p q | upon p q => p.Passes check ∧ q.Passes check
    | .unless _ p | many p | role _ p | node _ p | extend p => p.Passes check
    | empty | take _ | rule _ | held _ => True := by
  unfold Passes at h
  cases p
  case seq | alt | upon => exact Bool.and_eq_true_iff.mp (Bool.and_eq_true_iff.mp h).2
  case «unless» | many | role | node | extend => exact (Bool.and_eq_true_iff.mp h).2
  all_goals exact trivial

/-- What the checked patterns give the pieces they take, name and build holds of all pieces. -/
theorem forall_built_of_matches {P : Piece → Prop} {T : Token → Prop} (hrules : ∀ r, (rules r).Passes check)
    (htake : ∀ {terminal ts piece rest}, check (take terminal) → (∀ t ∈ ts, T t) →
      terminal.take? ts = some (piece, rest) → P piece)
    (hrole : ∀ {r p built ts a rest}, check (role r p) → (∀ t ∈ ts, T t) → Matches rules p built ts a rest →
      (∀ x ∈ a, P x) → ∀ x ∈ a, P { x with role := some r })
    (hnode : ∀ {k p built ts a rest}, check (node k p) → Matches rules p built ts a rest →
      (∀ x ∈ a, P x) → P (Piece.node k a))
    {p : Pattern ρ} {built a : List Piece} {ts rest : List Token} (h : Matches rules p built ts a rest)
    (hp : p.Passes check) (hbuilt : ∀ x ∈ built, P x) (hts : ∀ t ∈ ts, T t) :
    (∀ x ∈ a, P x) ∧ ∀ t ∈ rest, T t := by
  induction h with
  | empty | none => exact ⟨nofun, hts⟩
  | held | still => exact ⟨hbuilt, hts⟩
  | take h =>
    exact ⟨List.forall_mem_singleton.mpr (htake (passes_here hp) hts h),
      fun t ht => hts t ((Terminal.take?_spec h).1 ht)⟩
  | rule _ ih => exact ih (hrules _) nofun hts
  | seq _ _ ihp ihq =>
    obtain ⟨ha, hbetween⟩ := ihp (passes_inside hp).1 hbuilt hts
    obtain ⟨hb, hrest⟩ := ihq (passes_inside hp).2 hbuilt hbetween
    exact ⟨List.forall_mem_append.mpr ⟨ha, hb⟩, hrest⟩
  | left _ ih => exact ih (passes_inside hp).1 hbuilt hts
  | right _ ih => exact ih (passes_inside hp).2 hbuilt hts
  | «unless» _ ih => exact ih (passes_inside hp) hbuilt hts
  | more _ _ ihp ihmany =>
    obtain ⟨ha, hbetween⟩ := ihp (passes_inside hp) hbuilt hts
    obtain ⟨hb, hrest⟩ := ihmany hp hbuilt hbetween
    exact ⟨List.forall_mem_append.mpr ⟨ha, hb⟩, hrest⟩
  | role hmatch ih =>
    obtain ⟨ha, hrest⟩ := ih (passes_inside hp) hbuilt hts
    exact ⟨List.forall_mem_map.mpr (hrole (passes_here hp) hts hmatch ha), hrest⟩
  | node hmatch ih =>
    obtain ⟨ha, hrest⟩ := ih (passes_inside hp) hbuilt hts
    exact ⟨List.forall_mem_singleton.mpr (hnode (passes_here hp) hmatch ha), hrest⟩
  | extended _ _ ihstep ihextend =>
    obtain ⟨ha, hbetween⟩ := ihstep (passes_inside hp) hbuilt hts
    exact ihextend hp ha hbetween
  | upon _ _ ihbase ihp =>
    obtain ⟨ha, hbetween⟩ := ihbase (passes_inside hp).1 hbuilt hts
    exact ihp (passes_inside hp).2 ha hbetween

end Pattern

namespace Grammar

/-- Past the last level of operators there are operands only. -/
theorem rules_binary_of_le {level : Nat} (h : levels.length ≤ level) (arrow : Bool) :
    rules (.binary level arrow) = .rule (.operand arrow) := by
  rw [rules, List.getElem?_eq_none h]

/-- Levels are counted without end, but a check need only look at those there are. -/
theorem passes_binary {check : Pattern Rule → Bool}
    (hlevels : ∀ level < levels.length, ∀ arrow, (rules (.binary level arrow)).Passes check)
    (hoperand : ∀ arrow, (Pattern.rule (.operand arrow)).Passes check) (level : Nat) (arrow : Bool) :
    (rules (.binary level arrow)).Passes check := by
  by_cases hlevel : level < levels.length
  · exact hlevels level hlevel arrow
  · rw [rules_binary_of_le (Nat.le_of_not_lt hlevel)]
    exact hoperand arrow

end Grammar

/-- The tree of a source has the pieces of a file and the comments around them. -/
theorem exists_of_parse? {source : String} {t : Tree} (h : parse? source = some t) :
    ∃ tokens last pieces, tokens? source = some (tokens, last) ∧
      Pattern.Matches Grammar.rules file [] tokens pieces [] ∧
      t = .branch .program (((pieces.head?.map Piece.comments).getD []).map (none, ·) ++ weave pieces ++
        last.map (none, ·)) := by
  rw [parse?] at h
  split at h
  · cases h
  · rename_i tokens last htokens
    split at h
    · rename_i pieces hmatch
      exact ⟨tokens, last, pieces, htokens, Pattern.matches_of_matchDepth hmatch, (Option.some.inj h).symm⟩
    · cases h

end StructureGraph.Java.Syntax
