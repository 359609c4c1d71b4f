import StructureGraph.Decimal.Shortest
import StructureGraph.Resolution.Frequency

namespace StructureGraph.Resolution

open StructureGraph.Text (beforeLast? cutFirst?)

/-- A part of a whole, between none and all of it. -/
structure Share where
  value : Float
  inRange : 0.0 ≤ value ∧ value ≤ 1.0

namespace Share

def ofFloat? (x : Float) : Option Share :=
  if h : 0.0 ≤ x ∧ x ≤ 1.0 then some ⟨x, h⟩ else none

/-- What is said of a number that is no share. -/
def rangeMessage (x : Float) : String :=
  "Filter percentage must be within [0.0, 1.0], got " ++ Decimal.floatText x

end Share

/-- The class of a method: what stands before its name. -/
def declaringClass (signature : String) : String :=
  let head :=
    match cutFirst? '(' signature with
    | some (head, _) => head
    | none => signature
  (beforeLast? '.' head).getD ""

/-- A number of methods to keep, which is at least one and at most all of them. -/
def clampKept (total raw : Nat) : Nat := max 1 (min raw (max total 1))

/-- So small a part of a method is not kept for its own sake. -/
def slack : Float := 1e-9

/-- The least whole number that is no less than a number, where that is not negative. -/
def ceilNat (x : Float) : Nat :=
  let whole := x.toUInt64.toNat
  if Float.ofNat whole < x then whole + 1 else whole

/-- How many of the methods of a class are kept when a share of them is dropped, in any arithmetic that
has the whole numbers, a slack and a way up to the next whole number. -/
def keepCountIn {α : Type} [Sub α] [Mul α] (ofNat : Nat → α) (slack : α) (ceil : α → Nat)
    (total : Nat) (dropped : α) : Nat :=
  clampKept total (ceil (ofNat total * (ofNat 1 - dropped) - slack))

/-- How many of the methods of a class are kept when a share of them is dropped. -/
def keepCount (total : Nat) (dropped : Float) : Nat :=
  keepCountIn Float.ofNat slack ceilNat total dropped

/-- The same number in exact arithmetic. -/
def exactKeepCount (total : Nat) (dropped : Rat) : Nat :=
  keepCountIn Nat.cast (1 / 1000000000) (fun x : Rat => x.ceil.toNat) total dropped

/-- Methods with more calls come first, and of equal ones those with lesser signatures. -/
def rankLe (a b : String × Nat) : Bool :=
  decide (b.2 < a.2) || (a.2 == b.2 && decide (a.1 ≤ b.1))

def methodsOf (c : CallCounts) (name : String) : List (String × Nat) :=
  c.entries.filter fun e => declaringClass e.1 == name

/-- The methods of a class that are kept. -/
def keptOf (c : CallCounts) (keep : Nat → Nat) (name : String) : List (String × Nat) :=
  let methods := methodsOf c name
  (methods.mergeSort rankLe).take (keep methods.length)

/-- Keep the first methods of each class; how many of how many is given. -/
def keepRanked (c : CallCounts) (keep : Nat → Nat) : CallCounts :=
  c.filter fun e => (keptOf c keep (declaringClass e.1)).contains e

/-- Drop a share of the methods of each class. -/
def significant (dropped : Share) (c : CallCounts) : CallCounts :=
  if dropped.value ≤ 0.0 then c else keepRanked c (keepCount · dropped.value)

/-- The significant methods of some files. -/
structure ProcessedCounts where
  files : List String
  counts : CallCounts
  deriving DecidableEq, Repr

def process (dropped : Share) (ts : List FileTally) : ProcessedCounts :=
  ⟨ts.map FileTally.path,
   significant dropped (CallCounts.mergeAll (ts.map fun t => t.tally.counts))⟩

end StructureGraph.Resolution
