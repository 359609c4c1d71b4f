import StructureGraph.Files.Basic
import StructureGraph.Input.IgnoreRule

namespace StructureGraph.Input

open Files (Entry)

/-- The rules that lie in a directory. -/
structure Level where
  /-- How many names lead to the directory. -/
  depth : Nat
  own : IgnoreRules
  repository : IgnoreRules
  excluded : IgnoreRules

namespace Level

def rulesIn (e : Entry) (names : List String) : IgnoreRules :=
  match e.descend? names with
  | some (.file bytes) => .ofBytes bytes
  | _ => []

def ofDirectory (depth : Nat) (e : Entry) : Level :=
  ⟨depth, rulesIn e [".ignore"], rulesIn e [".gitignore"], rulesIn e [".git", "info", "exclude"]⟩

/-- The verdict of some of the levels' rules, the nearest level that has one counting. -/
def verdictOf? (rules : Level → IgnoreRules) (levels : List Level) (place : List String)
    (isDirectory : Bool) : Option Bool :=
  levels.findSome? fun l =>
    (rules l).verdict? (Files.Path.joinSegments (place.drop l.depth)) isDirectory

/-- Rules of `.ignore` files come before those of `.gitignore` files, wherever they lie. -/
def verdict? (levels : List Level) (place : List String) (isDirectory : Bool) : Option Bool :=
  ((verdictOf? own levels place isDirectory).or
    (verdictOf? repository levels place isDirectory)).or
    (verdictOf? excluded levels place isDirectory)

/-- The levels on the way to a place, nearest first. -/
def above (root : Entry) (place : List String) : List Level :=
  ((List.range place.length).filterMap fun depth =>
    (root.descend? (place.take depth)).map (ofDirectory depth)).reverse

end Level

def isHidden (name : String) : Bool := name.toList.head? == some '.'

def isLeftOut (levels : List Level) (place : List String) (name : String) (isDirectory : Bool) :
    Bool :=
  match Level.verdict? levels place isDirectory with
  | some kept => !kept
  | none => isHidden name

/-- A file below an input directory. -/
structure FoundFile where
  path : String
  /-- The names on the way from the input directory. -/
  below : List String
  deriving DecidableEq, Repr

mutual

/-- The files of a directory, whose own place is given with the rules above it. -/
def filesIn (levels : List Level) (place : List String) (path : String) (below : List String) :
    Entry → List FoundFile
  | .file _ => [⟨path, below⟩]
  | .directory entries =>
    let level := Level.ofDirectory place.length (.directory entries)
    filesAmong (level :: levels) place path below entries

def filesAmong (levels : List Level) (place : List String) (path : String)
    (below : List String) : List (String × Entry) → List FoundFile
  | [] => []
  | (name, e) :: es =>
    (if isLeftOut levels (place ++ [name]) name e.isDirectory then []
      else
        filesIn levels (place ++ [name]) (Files.Path.join path name) (below ++ [name]) e) ++
      filesAmong levels place path below es

end

def isJava (path : String) : Bool := Files.Path.extension? path == some "java"

inductive InputError where
  | missing (path : String)
  deriving DecidableEq, Repr

def InputError.message : InputError → String
  | missing path => "Input path does not exist: " ++ path

/-- The Java files of an input in the order of their paths, without those below a directory that an
exclusion matches. -/
def sourceFiles (files : Files) (input : String) (exclusions : List Glob) :
    Except InputError (List String) :=
  match files.entry? input, files.place? input with
  | some (.file _), _ => .ok [input]
  | some e, some place =>
    let found := filesIn (Level.above files.root place) place input [] e
    let kept := found.filter fun f =>
      isJava f.path && !exclusions.any (·.matches (Files.Path.joinSegments f.below))
    .ok ((kept.map FoundFile.path).mergeSort Files.Path.le)
  | _, _ => .error (.missing input)

/-- The directory from which the names of packages start. -/
def sourceRoot (files : Files) (input : String) : String :=
  if files.isDirectory input then input
  else ((Files.Path.parent? input).filter (· != "")).getD "."

end StructureGraph.Input
