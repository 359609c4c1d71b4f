import StructureGraph.Java.Syntax.Token

namespace StructureGraph.Java.Syntax

/-- One or more tokens that become a single leaf. -/
inductive Terminal where
  /-- A word with this spelling. -/
  | word (kind : Kind) (text : String)
  /-- A mark with this spelling. -/
  | mark (kind : Kind) (text : String)
  /-- An operator with this spelling that no longer operator begins with. -/
  | operator (text : String)
  /-- Touching tokens with these spellings. -/
  | joined (texts : List String)
  /-- Any word but these. -/
  | name (kind : Kind) (barred : List String)
  | literal (kind : Kind)

/-- A subtree under construction with the comments before it. -/
structure Piece where
  comments : List Tree
  role : Option Role
  tree : Tree

namespace Token

def piece (k : Kind) (t : Token) : Piece :=
  ⟨t.comments, none, t.leaf k⟩

/-- Glued tokens at the front with the given spellings, and the tokens behind them. -/
def dropGlued? : List String → List Token → Option (List Token)
  | [], ts => some ts
  | s :: ss, t :: ts => if t.isGlued && t.text == s then dropGlued? ss ts else none
  | _ :: _, [] => none

/-- The touching `>` marks at the front, closed by a touching `=` if there is one. -/
def angleRun : List Token → String × List Token
  | [] => ("", [])
  | t :: ts =>
    if t.isGlued && t.shape == .mark && t.text == ">" then
      let (run, rest) := angleRun ts
      (">" ++ run, rest)
    else if t.isGlued && t.shape == .mark && t.text == "=" then ("=", ts)
    else ("", t :: ts)

/-- The longest operator at the front. Operators that begin with `>` are made of several tokens. -/
def operatorAt (t : Token) (ts : List Token) : String × List Token :=
  if t.text == ">" then
    let (run, rest) := angleRun ts
    (">" ++ run, rest)
  else (t.text, ts)

end Token

def Terminal.take? (terminal : Terminal) : List Token → Option (Piece × List Token)
  | [] => none
  | t :: ts =>
    match terminal with
    | word k s => if t.shape == .word && t.text == s then some (t.piece k, ts) else none
    | mark k s => if t.shape == .mark && t.text == s then some (t.piece k, ts) else none
    | operator s =>
      if t.shape == .mark then
        let (o, rest) := t.operatorAt ts
        if o == s then some (⟨t.comments, none, .leaf .token t.gap s t.line⟩, rest) else none
      else none
    | joined [] => none
    | joined (s :: ss) =>
      if t.text == s then
        (Token.dropGlued? ss ts).map fun rest =>
          (⟨t.comments, none, .leaf .token t.gap (String.join (s :: ss)) t.line⟩, rest)
      else none
    | name k barred =>
      if t.shape == .word && !barred.contains t.text then some (t.piece k, ts) else none
    | literal k => if t.shape == .literal k then some (t.piece k, ts) else none

inductive Pattern (ρ : Type) where
  | empty
  | take (terminal : Terminal)
  | rule (r : ρ)
  | seq (p q : Pattern ρ)
  | alt (p q : Pattern ρ)
  | many (p : Pattern ρ)
  /-- The second pattern where the first does not match. -/
  | unless (p q : Pattern ρ)
  | role (r : Role) (p : Pattern ρ)
  | node (k : Kind) (p : Pattern ρ)
  /-- What has been built so far, if it is of one of these kinds. -/
  | held (kinds : Kind → Bool)
  /-- The pattern over what has been built so far, as often as it matches. -/
  | extend (step : Pattern ρ)
  /-- The first pattern, then the second over what it built. -/
  | upon (base p : Pattern ρ)

instance {ρ : Type} : Append (Pattern ρ) := ⟨.seq⟩

instance {ρ : Type} : OrElse (Pattern ρ) := ⟨fun p q => .alt p (q ())⟩

/-- The children of a node: its pieces with the comments between them. Comments before the first
piece lie outside the node. -/
def weave : List Piece → List (Option Role × Tree)
  | [] => []
  | p :: ps => (p.role, p.tree) :: ps.flatMap fun q => q.comments.map (none, ·) ++ [(q.role, q.tree)]

def Piece.node (k : Kind) (ps : List Piece) : Piece :=
  ⟨(ps.head?.map Piece.comments).getD [], none, .branch k (weave ps)⟩

abbrev Match := Option (List Piece × List Token)

namespace Pattern

variable {ρ : Type}

/-- The first pattern, then the second over what it built, as often as it matches. -/
def grow (base step : Pattern ρ) : Pattern ρ := upon base (extend step)

/-- The pattern, if what it builds is of one of these kinds. -/
def kept (kinds : Kind → Bool) (p : Pattern ρ) : Pattern ρ := upon p (held kinds)

/-- Match one pattern; `again` matches the patterns that rules and repetitions lead to. -/
def matchWith (rules : ρ → Pattern ρ) (again : Pattern ρ → List Piece → List Token → Match) :
    Pattern ρ → List Piece → List Token → Match
  | empty, _, ts => some ([], ts)
  | take terminal, _, ts => (terminal.take? ts).map fun (p, rest) => ([p], rest)
  | rule r, _, ts => again (rules r) [] ts
  | seq p q, built, ts =>
    match matchWith rules again p built ts with
    | none => none
    | some (a, rest) => (matchWith rules again q built rest).map fun (b, rest') => (a ++ b, rest')
  | alt p q, built, ts =>
    match matchWith rules again p built ts with
    | none => matchWith rules again q built ts
    | found => found
  | many p, built, ts =>
    match matchWith rules again p built ts with
    | none => some ([], ts)
    | some (a, rest) => (again (many p) built rest).map fun (b, rest') => (a ++ b, rest')
  | .unless p q, built, ts =>
    match matchWith rules again p built ts with
    | none => matchWith rules again q built ts
    | some _ => none
  | role r p, built, ts =>
    (matchWith rules again p built ts).map fun (a, rest) =>
      (a.map fun x => { x with role := some r }, rest)
  | node k p, built, ts =>
    (matchWith rules again p built ts).map fun (a, rest) => ([Piece.node k a], rest)
  | held kinds, built, ts =>
    if built.all (kinds ·.tree.kind) then some (built, ts) else none
  | extend step, built, ts =>
    match matchWith rules again step built ts with
    | none => some (built, ts)
    | some (a, rest) => again (extend step) a rest
  | upon base p, built, ts =>
    match matchWith rules again base built ts with
    | none => none
    | some (a, rest) => matchWith rules again p a rest

/-- Match with rules and repetitions nested at most as deep as the first argument says. -/
def matchDepth (rules : ρ → Pattern ρ) : Nat → Pattern ρ → List Piece → List Token → Match
  | 0, _, _, _ => none
  | n + 1, p, built, ts => matchWith rules (matchDepth rules n) p built ts

/-- Between two tokens that are taken, rules and repetitions nest less deep than this. -/
def depthPerToken : Nat := 1000

def match? (rules : ρ → Pattern ρ) (p : Pattern ρ) (ts : List Token) : Match :=
  matchDepth rules (depthPerToken * (ts.length + 1)) p [] ts

end Pattern

end StructureGraph.Java.Syntax
