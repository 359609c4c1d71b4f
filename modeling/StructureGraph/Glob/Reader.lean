import StructureGraph.Glob.Basic

namespace StructureGraph.Glob

inductive ReadError where
  | unclosedClass
  | invalidRange
  | unopenedAlternatives
  | unclosedAlternatives
  | danglingEscape
  deriving DecidableEq, Repr

/-- Extend the last range up to a character. -/
def extendRange (upper : Char) : List (Char × Char) → Option (List (Char × Char))
  | [] => none
  | (low, _) :: ranges => if upper < low then none else some ((low, upper) :: ranges)

/-- The ranges in the text of a class. They are held reversed; `opened` says that a dash waits for its
right side. A dash at either end stands for itself. -/
def rangesFrom (ranges : List (Char × Char)) (opened : Bool) :
    List Char → Option (List (Char × Char))
  | [] => some (if opened then ('-', '-') :: ranges else ranges).reverse
  | c :: cs =>
    if opened then (extendRange c ranges).bind fun ranges => rangesFrom ranges false cs
    else if c = '-' ∧ ranges ≠ [] then rangesFrom ranges true cs
    else rangesFrom ((c, c) :: ranges) false cs

/-- The text of a class: a bracket in front does not close it. -/
def classText : List Char → List Char
  | [] => []
  | c :: cs => c :: cs.takeWhile (· != ']')

/-- What stands behind an opening bracket. -/
structure ClassReading where
  negated : Bool
  ranges : List (Char × Char)
  /-- How many characters the class takes behind its opening bracket. -/
  length : Nat
  isClosed : Bool

/-- No class has a range that runs backwards. -/
def readClass (cs : List Char) : Option ClassReading :=
  let negated := cs.head? == some '!' || cs.head? == some '^'
  let inner := if negated then cs.drop 1 else cs
  let text := classText inner
  (rangesFrom [] false text).map fun ranges =>
    { negated, ranges
      length := (if negated then 1 else 0) + text.length + 1
      isClosed := (inner.drop text.length).head? == some ']' }

/-- Alternatives that are being read: the tokens before them and their finished branches. -/
structure Frame where
  before : List Token
  branches : List (List Token)

/-- What is read so far: the tokens of the current branch, reversed, and the alternatives that are
open around it. -/
structure Progress where
  tokens : List Token
  frames : List Frame

namespace Progress

def push (p : Progress) (t : Token) : Progress := { p with tokens := t :: p.tokens }

/-- Two stars that stand for no directories. -/
def pushStars (p : Progress) : Progress := (p.push .many).push .many

def openFrame (p : Progress) : Progress := ⟨[], ⟨p.tokens, []⟩ :: p.frames⟩

def nextBranch (p : Progress) : Progress :=
  match p.frames with
  | f :: fs => ⟨[], { f with branches := f.branches ++ [p.tokens.reverse] } :: fs⟩
  | [] => p.push (.literal ',')

def closeFrame? (p : Progress) : Option Progress :=
  match p.frames with
  | f :: fs => some ⟨.alternatives (f.branches ++ [p.tokens.reverse]) :: f.before, fs⟩
  | [] => none

/-- Two stars behind a slash take its place, and add nothing to two stars before it. -/
def pushRecursive (p : Progress) (t : Token) : Progress :=
  match p.tokens with
  | .anyDirectories :: ts => { p with tokens := .anyDirectories :: ts }
  | .anyBelow :: ts => { p with tokens := .anyBelow :: ts }
  | _ :: ts => { p with tokens := t :: ts }
  | [] => p.push t

/-- Two stars; `previous` is the character in front and the list holds those behind. The result says
whether a slash behind them belongs to them. -/
def pushDirectories (p : Progress) (previous : Option Char) (cs : List Char) : Progress × Bool :=
  if p.tokens.isEmpty then
    match cs with
    | [] => (p.push .anyDirectories, false)
    | '/' :: _ => (p.push .anyDirectories, true)
    | _ => (p.pushStars, false)
  else if previous = some '/' ∨ (!p.frames.isEmpty ∧ (previous = some ',' ∨ previous = some '\x7b'))
  then
    match cs with
    | [] => (p.pushRecursive .anyBelow, false)
    | '/' :: _ => (p.pushRecursive .anyBetween, true)
    | c :: _ =>
      if !p.frames.isEmpty && (c == ',' || c == '\x7d') then (p.pushRecursive .anyBelow, false)
      else (p.pushStars, false)
  else (p.pushStars, false)

end Progress

/-- Read tokens up to the end. Where that is allowed, the bracket of a class that is not closed stands
for itself. -/
def readFrom (allowUnclosed : Bool) (previous : Option Char) (p : Progress) :
    List Char → Except ReadError Progress
  | [] => .ok p
  | '*' :: '*' :: cs =>
    let (p', slash) := p.pushDirectories previous cs
    if slash then readFrom allowUnclosed (some '/') p' (cs.drop 1)
    else readFrom allowUnclosed (some '*') p' cs
  | '\\' :: c :: cs => readFrom allowUnclosed (some c) (p.push (.literal c)) cs
  | c :: cs =>
    match c with
    | '?' => readFrom allowUnclosed (some c) (p.push .any) cs
    | '*' => readFrom allowUnclosed (some c) (p.push .many) cs
    | '[' =>
      match readClass cs with
      | none => .error .invalidRange
      | some k =>
        if k.isClosed then
          readFrom allowUnclosed (some ']') (p.push (.oneOf k.negated k.ranges))
            (cs.drop k.length)
        else if allowUnclosed then readFrom allowUnclosed (some c) (p.push (.literal '[')) cs
        else .error .unclosedClass
    | '\x7b' => readFrom allowUnclosed (some c) p.openFrame cs
    | '\x7d' =>
      match p.closeFrame? with
      | some p' => readFrom allowUnclosed (some c) p' cs
      | none => .error .unopenedAlternatives
    | ',' => readFrom allowUnclosed (some c) p.nextBranch cs
    | '\\' => .error .danglingEscape
    | c => readFrom allowUnclosed (some c) (p.push (.literal c)) cs
termination_by cs => cs.length
decreasing_by all_goals simp_wf <;> omega

def read (literalSlash allowUnclosed : Bool) (text : String) : Except ReadError Glob := do
  let p ← readFrom allowUnclosed none ⟨[], []⟩ text.toList
  if p.frames.isEmpty then pure ⟨p.tokens.reverse, literalSlash⟩
  else throw .unclosedAlternatives

end StructureGraph.Glob
