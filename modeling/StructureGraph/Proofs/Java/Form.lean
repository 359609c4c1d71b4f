import StructureGraph.Proofs.Java.Matching
import StructureGraph.Proofs.Java.Places

namespace StructureGraph.Java.Syntax

/-- A number is at least the one and, if there is another, at most the other. -/
structure Bounds where
  least : Nat
  most : Option Nat
  deriving DecidableEq

namespace Bounds

variable {a b : Bounds} {m n : Nat}

def Holds (b : Bounds) (n : Nat) : Prop := b.least ≤ n ∧ ∀ m ∈ b.most, n ≤ m

def unknown : Bounds := ⟨0, none⟩

def exactly (n : Nat) : Bounds := ⟨n, some n⟩

def add (a b : Bounds) : Bounds :=
  ⟨a.least + b.least, a.most.bind fun m => b.most.map fun n => m + n⟩

/-- What holds if the one or the other does. -/
def join (a b : Bounds) : Bounds :=
  ⟨min a.least b.least, a.most.bind fun m => b.most.map fun n => max m n⟩

/-- What holds of a sum of any length. -/
def repeated (a : Bounds) : Bounds := ⟨0, if a.most = some 0 then some 0 else none⟩

/-- Whatever is within the one is within the other. -/
def implies (a b : Bounds) : Bool :=
  decide (b.least ≤ a.least) && b.most.all fun n => a.most.any fun m => decide (m ≤ n)

private theorem holds_unknown (n : Nat) : unknown.Holds n := ⟨Nat.zero_le n, nofun⟩

private theorem holds_exactly (n : Nat) : (exactly n).Holds n := by simp [Holds, exactly]

theorem Holds.add (ha : a.Holds m) (hb : b.Holds n) : (a.add b).Holds (m + n) := by
  refine ⟨Nat.add_le_add ha.1 hb.1, fun k hk => ?_⟩
  obtain ⟨i, hi, hk⟩ := Option.bind_eq_some_iff.mp hk
  obtain ⟨j, hj, rfl⟩ := Option.map_eq_some_iff.mp hk
  exact Nat.add_le_add (ha.2 i hi) (hb.2 j hj)

private theorem Holds.join_left (h : a.Holds n) (b : Bounds) : (a.join b).Holds n := by
  refine ⟨(Nat.min_le_left _ _).trans h.1, fun k hk => ?_⟩
  obtain ⟨i, hi, hk⟩ := Option.bind_eq_some_iff.mp hk
  obtain ⟨j, hj, rfl⟩ := Option.map_eq_some_iff.mp hk
  exact (h.2 i hi).trans (Nat.le_max_left _ _)

private theorem Holds.join_right (h : b.Holds n) (a : Bounds) : (a.join b).Holds n := by
  refine ⟨(Nat.min_le_right _ _).trans h.1, fun k hk => ?_⟩
  obtain ⟨i, hi, hk⟩ := Option.bind_eq_some_iff.mp hk
  obtain ⟨j, hj, rfl⟩ := Option.map_eq_some_iff.mp hk
  exact (h.2 j hj).trans (Nat.le_max_right _ _)

private theorem join_self (a : Bounds) : a.join a = a := by
  obtain ⟨least, most⟩ := a
  cases most <;> simp [join]

theorem holds_repeated_zero (a : Bounds) : a.repeated.Holds 0 := ⟨Nat.zero_le 0, fun _ _ => Nat.zero_le _⟩

theorem Holds.repeated (ha : a.Holds m) (hb : a.repeated.Holds n) : a.repeated.Holds (m + n) := by
  refine ⟨Nat.zero_le _, fun k hk => ?_⟩
  have hn := hb.2 k hk
  obtain ⟨hmost, hk⟩ := Option.ite_none_right_eq_some.mp hk
  have hm := ha.2 0 hmost
  have hzero := Option.some.inj hk
  omega

private theorem Holds.of_implies (h : a.Holds n) (himplies : a.implies b) : b.Holds n := by
  obtain ⟨hleast, hmost⟩ := Bool.and_eq_true_iff.mp himplies
  refine ⟨(of_decide_eq_true hleast).trans h.1, fun k hk => ?_⟩
  rw [Option.mem_def.mp hk, Option.all_some, Option.any_eq_true] at hmost
  obtain ⟨i, hi, hle⟩ := hmost
  exact (h.2 i hi).trans (of_decide_eq_true hle)

end Bounds

/-- A selection of children, which are known by their roles and kinds. -/
abbrev Part := Option Role → Kind → Bool

def countPieces (part : Part) (ps : List Piece) : Nat := ps.countP fun x => part x.role x.tree.kind

def countChildren (part : Part) (cs : List (Option Role × Tree)) : Nat := cs.countP fun x => part x.1 x.2.kind

theorem countPieces_singleton (part : Part) (x : Piece) :
    countPieces part [x] = if part x.role x.tree.kind then 1 else 0 := by
  rw [countPieces, List.countP_singleton]

theorem countPieces_append (part : Part) (a b : List Piece) :
    countPieces part (a ++ b) = countPieces part a + countPieces part b := List.countP_append

private theorem countPieces_role (part : Part) (r : Role) (a : List Piece) :
    countPieces part (a.map fun x => { x with role := some r }) =
      countPieces (fun _ k => part (some r) k) a := by
  rw [countPieces, List.countP_map]
  rfl

theorem countChildren_append (part : Part) (a b : List (Option Role × Tree)) :
    countChildren part (a ++ b) = countChildren part a + countChildren part b := List.countP_append

/-- Comments are left out. -/
def Part.LeavesComments (part : Part) : Prop := ∀ k, k.isComment → part none k = false

private theorem countChildren_comments {part : Part} (hpart : part.LeavesComments) {cs : List Tree}
    (hcs : ∀ c ∈ cs, c.IsCommentLeaf) : countChildren part (cs.map (none, ·)) = 0 := by
  rw [countChildren, List.countP_eq_zero]
  intro x hx
  obtain ⟨c, hc, rfl⟩ := List.mem_map.mp hx
  obtain ⟨k, gap, text, line, rfl, hk⟩ := hcs c hc
  simp [Tree.kind, hpart k hk]

private theorem countChildren_weave {part : Part} (hpart : part.LeavesComments) {ps : List Piece}
    (hps : ∀ p ∈ ps, ∀ c ∈ p.comments, c.IsCommentLeaf) :
    countChildren part (weave ps) = countPieces part ps := by
  have hrest : ∀ qs : List Piece, (∀ q ∈ qs, ∀ c ∈ q.comments, c.IsCommentLeaf) →
      countChildren part (qs.flatMap fun q => q.comments.map (none, ·) ++ [(q.role, q.tree)]) =
        countPieces part qs := by
    intro qs hqs
    induction qs with
    | nil => rfl
    | cons q qs ih =>
      rw [List.flatMap_cons, countChildren_append, countChildren_append,
        countChildren_comments hpart (hqs q List.mem_cons_self), ih fun q' hq' => hqs q' (.tail _ hq'),
        Nat.zero_add]
      exact (countPieces_append part [q] qs).symm
  cases ps with
  | nil => rfl
  | cons p ps =>
    rw [weave, ← List.singleton_append, countChildren_append, hrest ps fun q hq => hps q (.tail _ hq)]
    exact (countPieces_append part [p] ps).symm

namespace Pattern

variable {ρ : Type} {rules : ρ → Pattern ρ} {p : Pattern ρ} {built a : List Piece} {ts rest : List Token}

/-- How many pieces of a part a pattern builds, where it is known how many were built before. Rules are
looked into so deep at most. -/
def bounds (rules : ρ → Pattern ρ) : Nat → Part → Bounds → Pattern ρ → Bounds
  | 0, _, _, _ => .unknown
  | n + 1, part, before, p =>
    match p with
    | empty => .exactly 0
    | take terminal => .exactly (if part none terminal.kind then 1 else 0)
    | rule r => bounds rules n part (.exactly 0) (rules r)
    | seq p q => (bounds rules n part before p).add (bounds rules n part before q)
    | alt p q => (bounds rules n part before p).join (bounds rules n part before q)
    | many p => (bounds rules n part before p).repeated
    | .unless _ q => bounds rules n part before q
    | role r p => bounds rules n (fun _ k => part (some r) k) .unknown p
    | node k _ => .exactly (if part none k then 1 else 0)
    | held _ => before
    | extend step => before.join (bounds rules n part .unknown step)
    | upon base p => bounds rules n part (bounds rules n part before base) p

/-- What is built is within the bounds, however deep they are looked for. -/
def IsBounded (rules : ρ → Pattern ρ) (p : Pattern ρ) (built a : List Piece) : Prop :=
  ∀ n part before, before.Holds (countPieces part built) →
    (bounds rules n part before p).Holds (countPieces part a)

theorem isBounded_of_succ (h : ∀ n part before, before.Holds (countPieces part built) →
    (bounds rules (n + 1) part before p).Holds (countPieces part a)) : IsBounded rules p built a := by
  intro n part before hbefore
  cases n with
  | zero => exact Bounds.holds_unknown _
  | succ n => exact h n part before hbefore

private theorem Matches.isBounded (h : Matches rules p built ts a rest) : IsBounded rules p built a := by
  induction h with
  | empty => exact isBounded_of_succ fun n part before hbefore => Bounds.holds_exactly 0
  | take htake =>
    refine isBounded_of_succ fun n part before hbefore => ?_
    obtain ⟨-, -, hrole, gap, text, line, htree⟩ := Terminal.take?_spec htake
    rw [countPieces_singleton, hrole, htree]
    exact Bounds.holds_exactly _
  | rule _ ih => exact isBounded_of_succ fun n part before hbefore => ih n part _ (Bounds.holds_exactly 0)
  | seq _ _ ihp ihq =>
    refine isBounded_of_succ fun n part before hbefore => ?_
    rw [countPieces_append]
    exact (ihp n part before hbefore).add (ihq n part before hbefore)
  | left _ ih => exact isBounded_of_succ fun n part before hbefore => (ih n part before hbefore).join_left _
  | right _ ih => exact isBounded_of_succ fun n part before hbefore => (ih n part before hbefore).join_right _
  | none => exact isBounded_of_succ fun n part before hbefore => Bounds.holds_repeated_zero _
  | more _ _ ihp ihmany =>
    refine isBounded_of_succ fun n part before hbefore => ?_
    rw [countPieces_append]
    exact (ihp n part before hbefore).repeated (ihmany (n + 1) part before hbefore)
  | «unless» _ ih => exact isBounded_of_succ fun n part before hbefore => ih n part before hbefore
  | role _ ih =>
    refine isBounded_of_succ fun n part before hbefore => ?_
    rw [countPieces_role]
    exact ih n _ _ (Bounds.holds_unknown _)
  | node =>
    refine isBounded_of_succ fun n part before hbefore => ?_
    rw [countPieces_singleton]
    exact Bounds.holds_exactly _
  | held => exact isBounded_of_succ fun n part before hbefore => hbefore
  | still => exact isBounded_of_succ fun n part before hbefore => hbefore.join_left _
  | extended _ _ ihstep ihextend =>
    refine isBounded_of_succ fun n part before hbefore => ?_
    have hstep := ihstep n part .unknown (Bounds.holds_unknown _)
    have hextend := ihextend (n + 1) part _ hstep
    rw [bounds, Bounds.join_self] at hextend
    exact hextend.join_right before
  | upon _ _ ihbase ihp =>
    exact isBounded_of_succ fun n part before hbefore => ihp n part _ (ihbase n part before hbefore)

end Pattern

/-- How many children of a part a node has. -/
structure Demand where
  part : Part
  bounds : Bounds

namespace Demand

def some (r : Role) : Demand := ⟨fun r' _ => r' == Option.some r, ⟨1, none⟩⟩

def atMostOne (r : Role) : Demand := ⟨fun r' _ => r' == Option.some r, ⟨0, Option.some 1⟩⟩

/-- All children in a role are of a kind. -/
def only (r : Role) (k : Kind) : Demand := ⟨fun r' k' => r' == Option.some r && k' != k, .exactly 0⟩

/-- Some child in no role is of a kind. -/
def has (k : Kind) : Demand := ⟨fun r' k' => r' == none && k' == k, ⟨1, none⟩⟩

end Demand

/-- What is demanded of the children of nodes that declarations are read off. -/
def Kind.demands : Kind → List Demand
  | methodInvocation => [.some .name]
  | ifStatement => [.some .condition]
  | forStatement => [.has .token]
  | enhancedForStatement => [.some .type, .some .name, .atMostOne .name, .some .value]
  | localVariableDeclaration => [.some .type, .only .declarator .variableDeclarator]
  | fieldDeclaration | constantDeclaration => [.only .declarator .variableDeclarator]
  | variableDeclarator => [.some .name, .atMostOne .value]
  | methodDeclaration | constructorDeclaration | compactConstructorDeclaration | classDeclaration
  | interfaceDeclaration | enumDeclaration | recordDeclaration => [.some .name, .atMostOne .body]
  | _ => []

/-- The node has the children that are demanded. -/
def Tree.MeetsDemands (t : Tree) : Prop :=
  ∀ d ∈ t.kind.demands, d.bounds.Holds (countChildren d.part t.children)

/-- All nodes of the tree have the children that are demanded. -/
def Tree.IsFormed (t : Tree) : Prop := ∀ p s, t.at? p = Option.some s → s.MeetsDemands

private theorem Kind.leavesComments_of_mem_demands {k : Kind} {d : Demand} (h : d ∈ k.demands) :
    d.part.LeavesComments := by
  have hall : ∀ d ∈ k.demands, d.part none .lineComment = false ∧ d.part none .blockComment = false := by
    cases k <;> decide
  intro k' hk'
  cases k' <;> first | exact (hall d h).1 | exact (hall d h).2 | cases hk'

namespace Tree

variable {t : Tree} {k : Kind} {cs : List (Option Role × Tree)}

private theorem isFormed_leaf {gap text : String} {line : Nat} (hk : k.demands = []) :
    (leaf k gap text line).IsFormed := by
  intro p s hs
  cases p with
  | nil =>
    obtain rfl := Option.some.inj hs
    intro d hd
    rw [kind, hk] at hd
    cases hd
  | cons i p => cases hs

private theorem isFormed_branch (hk : (branch k cs).MeetsDemands) (hcs : ∀ x ∈ cs, x.2.IsFormed) :
    (branch k cs).IsFormed := by
  intro p s hs
  cases p with
  | nil => exact Option.some.inj hs ▸ hk
  | cons i p =>
    obtain ⟨x, hx, hs⟩ := Option.bind_eq_some_iff.mp hs
    exact hcs x (List.mem_of_getElem? hx) p s hs

private theorem isFormed_of_isCommentLeaf (h : t.IsCommentLeaf) : t.IsFormed := by
  obtain ⟨k, gap, text, line, rfl, hk⟩ := h
  refine isFormed_leaf ?_
  cases k <;> first | rfl | cases hk

theorem IsFormed.meetsDemands (h : t.IsFormed) : t.MeetsDemands := h [] t rfl

theorem IsFormed.children (h : t.IsFormed) : ∀ x ∈ t.children, x.2.IsFormed := by
  intro x hx p s hs
  obtain ⟨i, hi⟩ := List.mem_iff_getElem?.mp hx
  exact h (i :: p) s (by rw [at?_cons, hi, Option.bind_some, hs])

theorem IsFormed.of_mem_allAs (h : t.IsFormed) {r : Role} {s : Tree} (hs : s ∈ t.allAs r) : s.IsFormed := by
  obtain ⟨x, hx, rfl⟩ := List.mem_map.mp hs
  exact h.children x (List.mem_filter.mp hx).1

theorem IsFormed.at? (h : t.IsFormed) {p : List Nat} {s : Tree} (hs : t.at? p = Option.some s) :
    s.IsFormed := by
  intro q s' hs'
  exact h (p ++ q) s' (by rw [at?_append, hs, Option.bind_some, hs'])

end Tree

namespace Tree.MeetsDemands

variable {t s : Tree} {r : Role} {k : Kind}

private theorem length_allAs (r : Role) (t : Tree) :
    (t.allAs r).length = countChildren (fun r' _ => r' == Option.some r) t.children := by
  rw [allAs, List.length_map, countChildren, List.countP_eq_length_filter]

theorem exists_childAs (h : t.MeetsDemands) (hr : .some r ∈ t.kind.demands) :
    ∃ s, t.childAs r = Option.some s := by
  have hleast := (h _ hr).1
  rw [Demand.some, ← length_allAs] at hleast
  exact ⟨_, List.head?_eq_getElem? ▸ List.getElem?_eq_getElem hleast⟩

/-- Of a role that is taken once at most there is the one child that is looked at. -/
theorem allAs_eq (h : t.MeetsDemands) (hr : .atMostOne r ∈ t.kind.demands) :
    t.allAs r = (t.childAs r).toList := by
  have hmost := (h _ hr).2 1 rfl
  rw [Demand.atMostOne, ← length_allAs] at hmost
  rw [childAs]
  match hchildren : t.allAs r with
  | [] | [_] => rfl
  | _ :: _ :: _ =>
    rw [hchildren] at hmost
    exact absurd hmost (by simp)

theorem kind_eq (h : t.MeetsDemands) (hr : .only r k ∈ t.kind.demands) (hs : s ∈ t.allAs r) : s.kind = k := by
  have hmost := (h _ hr).2 0 rfl
  obtain ⟨x, hx, rfl⟩ := List.mem_map.mp hs
  obtain ⟨hx, hrole⟩ := List.mem_filter.mp hx
  have hnot : ¬(x.1 == Option.some r && x.2.kind != k) = true :=
    List.countP_eq_zero.mp (Nat.le_zero.mp hmost) x hx
  rw [hrole, Bool.true_and, bne_iff_ne, not_not] at hnot
  exact hnot

end Tree.MeetsDemands

structure Piece.IsFormed (p : Piece) : Prop where
  tree : p.tree.IsFormed
  comments : ∀ c ∈ p.comments, c.IsCommentLeaf

private theorem isFormed_of_mem_weave {ps : List Piece} (hps : ∀ p ∈ ps, p.IsFormed) :
    ∀ x ∈ weave ps, x.2.IsFormed := by
  intro x hx
  rcases mem_weave hx with ⟨p, hp, rfl⟩ | ⟨p, hp, c, hc, rfl⟩
  · exact (hps p hp).tree
  · exact Tree.isFormed_of_isCommentLeaf ((hps p hp).comments c hc)

/-- The comments before the first of some pieces. -/
theorem isCommentLeaf_of_mem_comments {ps : List Piece} (hps : ∀ p ∈ ps, p.IsFormed) :
    ∀ c ∈ (ps.head?.map Piece.comments).getD [], c.IsCommentLeaf := by
  cases ps with
  | nil => exact nofun
  | cons p ps => exact (hps p List.mem_cons_self).comments

private theorem Piece.isFormed_node {k : Kind} {ps : List Piece} (hps : ∀ p ∈ ps, p.IsFormed)
    (hk : ∀ d ∈ k.demands, d.bounds.Holds (countPieces d.part ps)) : (Piece.node k ps).IsFormed where
  tree := by
    refine Tree.isFormed_branch (fun d hd => ?_) (isFormed_of_mem_weave hps)
    have hcount := countChildren_weave (Kind.leavesComments_of_mem_demands hd) fun p hp => (hps p hp).comments
    exact hcount ▸ hk d hd
  comments := isCommentLeaf_of_mem_comments hps

namespace Pattern

variable {ρ : Type} {rules : ρ → Pattern ρ} {p : Pattern ρ} {built a : List Piece} {ts rest : List Token}

/-- The pattern builds no leaf of which anything is demanded and no node without the children it needs. Rules
are looked into so deep at most. -/
def buildsFormed (rules : ρ → Pattern ρ) (n : Nat) : Pattern ρ → Bool
  | take terminal => terminal.kind.demands.isEmpty
  | node k p => k.demands.all fun d => (bounds rules n d.part .unknown p).implies d.bounds
  | _ => true

private theorem Matches.isFormed {n : Nat} (h : Matches rules p built ts a rest)
    (hrules : ∀ r, (rules r).Passes (buildsFormed rules n)) (hp : p.Passes (buildsFormed rules n))
    (hbuilt : ∀ x ∈ built, x.IsFormed) (hts : ∀ t ∈ ts, ∀ c ∈ t.comments, c.IsCommentLeaf) :
    ∀ x ∈ a, x.IsFormed := by
  refine (forall_built_of_matches hrules ?_ (fun _ _ _ ha x hx => ⟨(ha x hx).tree, (ha x hx).comments⟩) ?_
    h hp hbuilt hts).1
  · intro terminal ts piece rest hcheck hts htake
    obtain ⟨-, ⟨t, ht, hcomments⟩, -, gap, text, line, htree⟩ := Terminal.take?_spec htake
    exact ⟨htree ▸ Tree.isFormed_leaf (List.isEmpty_iff.mp hcheck), hcomments ▸ hts t ht⟩
  · intro k p built ts a rest hcheck hmatch ha
    refine Piece.isFormed_node ha fun d hd => ?_
    exact (hmatch.isBounded n d.part .unknown (Bounds.holds_unknown _)).of_implies
      (List.all_eq_true.mp hcheck d hd)

end Pattern

/-- Rules nest so deep at most on the way from a node to the pieces it is made of. -/
def Grammar.depth : Nat := 100

private theorem Grammar.buildsFormed_rules (r : Rule) :
    (rules r).Passes (Pattern.buildsFormed rules depth) := by
  cases r with
  | binary level arrow => exact passes_binary (by decide +kernel) (fun _ => rfl) level arrow
  | operand arrow | cast arrow | expression arrow => cases arrow <;> decide +kernel
  | type s | unannotatedType s | simpleType s => rfl
  | assignable arrow => rfl
  | _ => decide +kernel

/-- The tree of a source is formed. -/
theorem isFormed_of_parse? {source : String} {t : Tree} (h : parse? source = some t) : t.IsFormed := by
  obtain ⟨tokens, last, pieces, htokens, hmatches, rfl⟩ := exists_of_parse? h
  obtain ⟨hcomments, hlast⟩ := isCommentLeaf_of_tokens? htokens
  have hpieces := hmatches.isFormed Grammar.buildsFormed_rules rfl nofun hcomments
  have hleaves : ∀ {cs : List Tree}, (∀ c ∈ cs, c.IsCommentLeaf) →
      ∀ x ∈ cs.map ((none : Option Role), ·), x.2.IsFormed := by
    intro cs hcs
    exact List.forall_mem_map.mpr fun c hc => Tree.isFormed_of_isCommentLeaf (hcs c hc)
  refine Tree.isFormed_branch nofun ?_
  exact List.forall_mem_append.mpr ⟨List.forall_mem_append.mpr
    ⟨hleaves (isCommentLeaf_of_mem_comments hpieces), isFormed_of_mem_weave hpieces⟩, hleaves hlast⟩

end StructureGraph.Java.Syntax
