import StructureGraph.Resolution.Call
import StructureGraph.Resolution.Resolver
import StructureGraph.Table

namespace StructureGraph.Resolution

open StructureGraph.Java

/-- For each signature the number of calls that mean it. -/
abbrev CallCounts := Table Nat

namespace CallCounts

def count (c : CallCounts) (signature : String) : Nat := (c.get? signature).getD 0

def add (c : CallCounts) (signature : String) (n : Nat) : CallCounts :=
  c.insert signature (c.count signature + n)

/-- The sums of the counts of two tables. -/
def merge (a b : CallCounts) : CallCounts :=
  b.entries.foldl (fun c e => c.add e.1 e.2) a

def mergeAll (cs : List CallCounts) : CallCounts := cs.foldl merge .empty

end CallCounts

/-- Beginnings of the signatures of the standard library. -/
def standardPrefixes : List String := ["java.", "javax."]

def isStandard (prefixes : List String) (signature : String) : Bool :=
  prefixes.any fun p => p.toList.isPrefixOf signature.toList

/-- What became of some calls. -/
structure Tally where
  counts : CallCounts
  unresolved : Nat
  /-- How many calls mean methods of the standard library. -/
  excluded : Nat
  deriving DecidableEq, Repr

namespace Tally

def empty : Tally := ⟨.empty, 0, 0⟩

def record (prefixes : List String) (t : Tally) : Outcome → Tally
  | .resolved signature =>
    if isStandard prefixes signature then { t with excluded := t.excluded + 1 }
    else { t with counts := t.counts.add signature 1 }
  | .unresolved _ => { t with unresolved := t.unresolved + 1 }

end Tally

/-- All calls of a unit with the places where they stand. -/
def sites (u : CompilationUnit) : List (Site × Call) :=
  u.types.flatMap fun d => d.bodies.flatMap fun m => m.calls.map fun c => (⟨u, d, m⟩, c)

/-- Resolve calls one after the other. -/
def resolveAll : List (Site × Call) → Inquiry FoundType (List Outcome)
  | [] => pure []
  | (s, c) :: rest => do
    let r ← s.resolve c
    let rs ← resolveAll rest
    pure (r :: rs)

def tallyUnit (prefixes : List String) (u : CompilationUnit) : Inquiry FoundType Tally := do
  let rs ← resolveAll (sites u)
  pure (rs.foldl (Tally.record prefixes) .empty)

/-- The calls of one file, or what is wrong with it. -/
structure FileTally where
  path : String
  tally : Tally
  error : Option SourceError
  deriving DecidableEq, Repr

/-- The declarations in a file. -/
def readUnit (files : Files) (path : String) : Except SourceError CompilationUnit :=
  match files.text? path with
  | some text => CompilationUnit.ofText path text
  | none => .error (.unreadable path)

def tallyFile (files : Files) (prefixes : List String) (path : String) :
    Inquiry FoundType FileTally :=
  match readUnit files path with
  | .ok u => do
    let tally ← tallyUnit prefixes u
    pure ⟨path, tally, none⟩
  | .error e => pure ⟨path, .empty, some e⟩

/-- The tallies of the files of one worker, who takes them in this order. With each file goes its
place among all. -/
def tallyBatch (files : Files) (prefixes : List String) :
    List (String × Nat) → Resolver → List (FileTally × Nat)
  | [], _ => []
  | (path, place) :: batch, r =>
    let (t, r) := r.pursue files (tallyFile files prefixes path)
    (t, place) :: tallyBatch files prefixes batch r

/-- The calls of files that are shared out in batches, with types looked up in some directories.
Each batch has a worker with a resolver of its own, and the tallies are put in order at last. -/
def tallyBatches (files : Files) (prefixes directories : List String)
    (batches : List (List (String × Nat))) : List FileTally :=
  let tallies := batches.flatMap fun batch =>
    tallyBatch files prefixes batch (.forScope directories)
  (tallies.mergeSort fun a b => decide (a.2 ≤ b.2)).map Prod.fst

/-- The calls of each of some files, with types looked up below a root and beside the files. -/
def analyze (files : Files) (prefixes : List String) (root : String) (sources : List String) :
    List FileTally :=
  tallyBatches files prefixes (scope files root sources) [sources.zipIdx]

/-- How often each method is called in some files together. -/
def totalCounts (ts : List FileTally) : CallCounts :=
  (ts.flatMap fun t => t.tally.counts.entries).foldl (fun total e => total.add e.1 e.2) .empty

/-- How often each method is called in all of some files, with types looked up below a root and beside
the files. -/
def corpusCounts (files : Files) (prefixes : List String) (root : String) (sources : List String) :
    CallCounts :=
  totalCounts (analyze files prefixes root sources)

end StructureGraph.Resolution
