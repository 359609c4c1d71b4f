import StructureGraph.Text.Segments

namespace StructureGraph.Files.Path

open StructureGraph.Text (segments beforeLast? lastSegment)

/-- One step of a path. Steps are ordered as they are listed, and names as texts. -/
inductive Step where
  | root
  | here
  | up
  | name (text : String)
  deriving DecidableEq, Hashable, Repr

namespace Step

def rank : Step → Nat
  | root => 0
  | here => 1
  | up => 2
  | name _ => 3

def lt : Step → Step → Bool
  | name a, name b => decide (a < b)
  | a, b => decide (a.rank < b.rank)

end Step

def isAbsolute (path : String) : Bool := path.toList.head? == some '/'

def joinSegments (ss : List String) : String := String.intercalate "/" ss

/-- The step that a segment stands for, if it means anything where it stands. -/
def step? (first : Bool) : String → Option Step
  | "" => none
  | "." => if first then some .here else none
  | ".." => some .up
  | s => some (.name s)

/-- The steps of segments that follow others. -/
def stepsAfter (ss : List String) : List Step := ss.filterMap (step? false)

def steps (path : String) : List Step :=
  match segments '/' path with
  | "" :: ss => if isAbsolute path then .root :: stepsAfter ss else []
  | s :: ss => (step? true s).toList ++ stepsAfter ss
  | [] => []

def stepsLt : List Step → List Step → Bool
  | _, [] => false
  | [], _ :: _ => true
  | a :: as, b :: bs => a.lt b || (a == b && stepsLt as bs)

/-- The order of paths, step by step. -/
def le (a b : String) : Bool := !stepsLt (steps b) (steps a)

/-- Go on from a path. Absolute paths start anew. -/
def join (base path : String) : String :=
  if isAbsolute path || base.isEmpty then path
  else if base.toList.getLast? == some '/' then base ++ path
  else base ++ "/" ++ path

/-- Segments, last one first, without those at the end that mean nothing. The first segment of a
path stays. -/
def trimReversed : List String → List String
  | [] => []
  | [s] => [s]
  | s :: ss => if s = "" ∨ s = "." then trimReversed ss else s :: ss

def reversed (path : String) : List String := trimReversed (segments '/' path).reverse

/-- The text of reversed segments; a lone empty one is the root of an absolute path. -/
def ofReversed (absolute : Bool) (ss : List String) : String :=
  match trimReversed ss with
  | [""] => if absolute then "/" else ""
  | ss => joinSegments ss.reverse

/-- The path without its last step. A root and an empty path have none. -/
def parent? (path : String) : Option String :=
  match reversed path with
  | [] | [""] => none
  | _ :: ss => some (ofReversed (isAbsolute path) ss)

/-- The name at the end of a path that does not end in dots only. -/
def fileName? (path : String) : Option String :=
  match (steps path).getLast? with
  | some (.name s) => some s
  | _ => none

/-- The part of a file name before its last dot, unless the dot comes first. -/
def stem (name : String) : String :=
  match beforeLast? '.' name with
  | none | some "" => name
  | some s => s

/-- What follows the last dot of a file name, unless the dot comes first. -/
def extension? (path : String) : Option String :=
  (fileName? path).bind fun name =>
    match beforeLast? '.' name with
    | none | some "" => none
    | some _ => some (lastSegment '.' name)

/-- Replace the extension of a path, or give it one. -/
def withExtension (path extension : String) : String :=
  match fileName? path, reversed path with
  | some name, _ :: ss => joinSegments ((stem name ++ "." ++ extension) :: ss).reverse
  | _, _ => path

end StructureGraph.Files.Path
