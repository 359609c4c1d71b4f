import StructureGraph.Proofs.Java.Matching

namespace StructureGraph.Java.Syntax

/-- What is known of a token. -/
inductive Sign where
  | mark (text : String)
  | string
  deriving DecidableEq

namespace Sign

def Fits : Sign → Token → Prop
  | mark s, t => t.shape = .mark ∧ t.text = s
  | string, t => t.shape = .literal .stringLiteral ∧ t.text.toList.head? = some '"'

/-- The signs of the first of some tokens; of those behind nothing is known. -/
def FitAll : List Sign → List Token → Prop
  | [], _ => True
  | s :: ss, t :: ts => s.Fits t ∧ FitAll ss ts
  | _ :: _, [] => False

/-- The token may be spelled so. -/
def maySpell : Sign → String → Bool
  | mark s, text => s == text
  | string, text => text.toList.head? == some '"'

/-- What may be left over once a terminal has taken a token of this sign, before these. -/
def after (s : Sign) (ss : List Sign) : Terminal → List (List Sign)
  | .mark _ text => if s = mark text then [ss] else []
  | .operator text => if s = mark ">" then [[]] else if s = mark text then [ss] else []
  | .joined [] => []
  | .joined (text :: _) => if s.maySpell text then [[]] else []
  | .literal k => if s = string ∧ k = .stringLiteral then [ss] else []
  | .word _ _ | .name _ _ => []

variable {s : Sign} {ss : List Sign} {t : Token} {ts rest : List Token} {piece : Piece}

private theorem maySpell_of_fits (h : s.Fits t) : s.maySpell t.text := by
  cases s with
  | mark m => simp [maySpell, h.2]
  | string => simp [maySpell, h.2]

private theorem eq_mark_of_fits (h : s.Fits t) (hshape : t.shape = .mark) : s = mark t.text := by
  cases s with
  | mark m => rw [h.2]
  | string => cases hshape.symm.trans h.1

private theorem shape_ne_word_of_fits (h : s.Fits t) : t.shape ≠ .word := by
  intro hword
  cases s with
  | mark m => cases hword.symm.trans h.1
  | string => cases hword.symm.trans h.1

private theorem exists_after {terminal : Terminal} (h : terminal.take? (t :: ts) = some (piece, rest))
    (ht : s.Fits t) (hts : FitAll ss ts) : ∃ left ∈ s.after ss terminal, FitAll left rest := by
  cases terminal with
  | word | name =>
    simp only [Terminal.take?, Option.ite_none_right_eq_some, Bool.and_eq_true, beq_iff_eq] at h
    exact absurd h.1.1 (shape_ne_word_of_fits ht)
  | mark k text =>
    simp only [Terminal.take?, Option.ite_none_right_eq_some, Bool.and_eq_true, beq_iff_eq,
      Option.some.injEq, Prod.mk.injEq] at h
    obtain ⟨⟨hshape, rfl⟩, -, rfl⟩ := h
    exact ⟨ss, by simp [after, eq_mark_of_fits ht hshape], hts⟩
  | operator text =>
    simp only [Terminal.take?] at h
    split at h
    · rename_i hshape
      have hs := eq_mark_of_fits ht (by simpa using hshape)
      by_cases hangle : t.text = ">"
      · exact ⟨[], by simp [after, hs, hangle], trivial⟩
      · simp only [Token.operatorAt, beq_iff_eq, if_neg hangle, Option.ite_none_right_eq_some,
          Option.some.injEq, Prod.mk.injEq] at h
        obtain ⟨rfl, -, rfl⟩ := h
        exact ⟨ss, by simp [after, hs, hangle], hts⟩
    · cases h
  | joined texts =>
    cases texts with
    | nil => cases h
    | cons text texts =>
      simp only [Terminal.take?, Option.ite_none_right_eq_some, beq_iff_eq] at h
      exact ⟨[], by simp [after, ← h.1, maySpell_of_fits ht], trivial⟩
  | literal k =>
    simp only [Terminal.take?, Option.ite_none_right_eq_some, beq_iff_eq, Option.some.injEq,
      Prod.mk.injEq] at h
    obtain ⟨hshape, -, rfl⟩ := h
    cases s with
    | mark m => cases hshape.symm.trans ht.1
    | string =>
      obtain rfl := Shape.literal.inj (hshape.symm.trans ht.1)
      exact ⟨ss, by simp [after], hts⟩

end Sign

namespace Pattern

open Sign (FitAll)

variable {ρ : Type} {rules : ρ → Pattern ρ} {p : Pattern ρ} {built a : List Piece}
  {ts rest : List Token} {ss : List Sign}

/-- The signs that may be left over once a pattern has matched, looking so deep at most. Where nothing
is known anything may be. -/
def leaves (rules : ρ → Pattern ρ) : Nat → Pattern ρ → List Sign → List (List Sign)
  | 0, _, _ => [[]]
  | _ + 1, _, [] => [[]]
  | n + 1, p, s :: ss =>
    match p with
    | empty | held _ => [s :: ss]
    | take terminal => s.after ss terminal
    | rule r => leaves rules n (rules r) (s :: ss)
    | seq p q => (leaves rules n p (s :: ss)).flatMap (leaves rules n q)
    | alt p q => leaves rules n p (s :: ss) ++ leaves rules n q (s :: ss)
    | many p => (s :: ss) :: (leaves rules n p (s :: ss)).flatMap fun left =>
        if left = s :: ss then [] else leaves rules n (many p) left
    | .unless _ q => leaves rules n q (s :: ss)
    | role _ p | node _ p => leaves rules n p (s :: ss)
    | extend step => (s :: ss) :: (leaves rules n step (s :: ss)).flatMap fun left =>
        if left = s :: ss then [] else leaves rules n (extend step) left
    | upon base p => (leaves rules n base (s :: ss)).flatMap (leaves rules n p)

/-- Whatever a pattern leaves over may be left over. -/
def IsSound (rules : ρ → Pattern ρ) (p : Pattern ρ) (ts rest : List Token) : Prop :=
  ∀ n ss, FitAll ss ts → ∃ left ∈ leaves rules n p ss, FitAll left rest

theorem isSound_of_cons (h : ∀ n s ss, FitAll (s :: ss) ts →
    ∃ left ∈ leaves rules (n + 1) p (s :: ss), FitAll left rest) : IsSound rules p ts rest := by
  intro n ss hss
  cases n with
  | zero => exact ⟨[], List.mem_singleton_self _, trivial⟩
  | succ n =>
    cases ss with
    | nil => exact ⟨[], List.mem_singleton_self _, trivial⟩
    | cons s ss => exact h n s ss hss

/-- A pattern and one behind it. -/
theorem exists_flatMap {q : Pattern ρ} {between : List Token} (hp : IsSound rules p ts between)
    (hq : IsSound rules q between rest) (n : Nat) (hss : FitAll ss ts) :
    ∃ left ∈ (leaves rules n p ss).flatMap (leaves rules n q), FitAll left rest := by
  obtain ⟨middle, hmiddle, hbetween⟩ := hp n ss hss
  obtain ⟨left, hleft, hrest⟩ := hq n middle hbetween
  exact ⟨left, List.mem_flatMap.mpr ⟨middle, hmiddle, hleft⟩, hrest⟩

/-- A pattern that is repeated; what it takes nothing for needs no second look. -/
theorem exists_repeated {q : Pattern ρ} {between : List Token} (hp : IsSound rules p ts between)
    (hq : IsSound rules q between rest) {s : Sign} (n : Nat)
    (hstep : leaves rules (n + 1) q (s :: ss) = (s :: ss) ::
      (leaves rules n p (s :: ss)).flatMap fun left =>
        if left = s :: ss then [] else leaves rules n q left)
    (hss : FitAll (s :: ss) ts) : ∃ left ∈ leaves rules (n + 1) q (s :: ss), FitAll left rest := by
  obtain ⟨middle, hmiddle, hbetween⟩ := hp n (s :: ss) hss
  by_cases hsame : middle = s :: ss
  · exact hq (n + 1) (s :: ss) (hsame ▸ hbetween)
  · obtain ⟨left, hleft, hrest⟩ := hq n middle hbetween
    refine ⟨left, ?_, hrest⟩
    rw [hstep]
    exact List.mem_cons_of_mem _ (List.mem_flatMap.mpr ⟨middle, hmiddle, by rwa [if_neg hsame]⟩)

theorem Matches.isSound (h : Matches rules p built ts a rest) : IsSound rules p ts rest := by
  induction h with
  | empty | held => exact isSound_of_cons fun n s ss hss => ⟨_, List.mem_singleton_self _, hss⟩
  | @take _ _ ts _ _ htake =>
    refine isSound_of_cons fun n s ss hss => ?_
    cases ts with
    | nil => cases htake
    | cons t ts => exact Sign.exists_after htake hss.1 hss.2
  | rule _ ih | «unless» _ ih | role _ ih | node _ ih => exact isSound_of_cons fun n s ss hss => ih n _ hss
  | seq _ _ ihp ihq => exact isSound_of_cons fun n s ss hss => exists_flatMap ihp ihq n hss
  | left _ ih =>
    refine isSound_of_cons fun n s ss hss => ?_
    obtain ⟨left, hleft, hrest⟩ := ih n _ hss
    exact ⟨left, List.mem_append_left _ hleft, hrest⟩
  | right _ ih =>
    refine isSound_of_cons fun n s ss hss => ?_
    obtain ⟨left, hleft, hrest⟩ := ih n _ hss
    exact ⟨left, List.mem_append_right _ hleft, hrest⟩
  | none | still => exact isSound_of_cons fun n s ss hss => ⟨_, List.mem_cons_self, hss⟩
  | more _ _ ihp ihmany => exact isSound_of_cons fun n s ss hss => exists_repeated ihp ihmany n rfl hss
  | extended _ _ ihstep ihextend =>
    exact isSound_of_cons fun n s ss hss => exists_repeated ihstep ihextend n rfl hss
  | upon _ _ ihbase ihp => exact isSound_of_cons fun n s ss hss => exists_flatMap ihbase ihp n hss

end Pattern

/-- A text is no source if neither a statement nor a method can begin with its first tokens. -/
theorem parse?_eq_none {source : String} {tokens : List Token} {last : List Tree} {ss : List Sign}
    (htokens : tokens? source = some (tokens, last)) (hne : tokens ≠ []) (hfit : Sign.FitAll ss tokens)
    {n : Nat} (hnone : Pattern.leaves Grammar.rules n
      (.rule .statement <|> .rule .methodDeclaration) ss = []) : parse? source = none := by
  have hmatch : Pattern.match? Grammar.rules file tokens = some ([], tokens) := by
    have hfirst : ∀ again built, (∀ p built ts a rest, again p built ts = some (a, rest) →
        Pattern.Matches Grammar.rules p built ts a rest) → Pattern.matchWith Grammar.rules again
          (.rule .statement <|> .rule .methodDeclaration) built tokens = none := by
      intro again built hagain
      refine Option.eq_none_iff_forall_ne_some.mpr fun x hx => ?_
      obtain ⟨left, hleft, -⟩ := (Pattern.matches_of_matchWith hagain hx).isSound n ss hfit
      rw [hnone] at hleft
      cases hleft
    have hdepth : Pattern.depthPerToken * (tokens.length + 1) =
        Pattern.depthPerToken * tokens.length + 999 + 1 := by
      rw [Nat.mul_add]
      rfl
    rw [Pattern.match?, hdepth, Pattern.matchDepth, file, Pattern.matchWith,
      hfirst _ _ fun _ _ _ _ _ => Pattern.matches_of_matchDepth]
  rw [parse?, htokens]
  simp only [hmatch]
  split
  · rename_i heq
    cases tokens with
    | nil => exact (hne rfl).elim
    | cons t ts => cases heq
  · rfl

theorem leaves_bracket : Pattern.leaves Grammar.rules 200
    (.rule .statement <|> .rule .methodDeclaration) [.mark "["] = [] := by
  decide +kernel

theorem leaves_brace : Pattern.leaves Grammar.rules 200
    (.rule .statement <|> .rule .methodDeclaration) [.mark "\x7b", .string, .mark ":"] = [] := by
  decide +kernel

end StructureGraph.Java.Syntax
