import StructureGraph.Files.Basic
import StructureGraph.Java.Source
import StructureGraph.Resolution.FoundType

namespace StructureGraph.Resolution

open StructureGraph.Java
open StructureGraph.Text (segments)

/-- Hidden directories and those of build results are left out. -/
def isSkippedDirectory (name : String) : Bool :=
  name.toList.head? == some '.' || name == "target"

mutual

/-- A directory and those below it that are not left out, whatever its own name. -/
def visibleDirectories (path : String) : Files.Entry → List String
  | .file _ => []
  | .directory entries => path :: visibleDirectoriesAmong path entries

def visibleDirectoriesAmong (path : String) : List (String × Files.Entry) → List String
  | [] => []
  | (name, e) :: es =>
    (if isSkippedDirectory name then [] else visibleDirectories (Files.Path.join path name) e) ++
      visibleDirectoriesAmong path es

end

/-- Drop paths that mean the same as the one before. -/
def dropSamePaths : List String → List String
  | [] => []
  | p :: ps =>
    p :: (dropSamePaths ps).filter fun q => Files.Path.steps q != Files.Path.steps p

/-- The directory of a file, if its path names one. -/
def directoryOf? (file : String) : Option String :=
  (Files.Path.parent? file).filter (· != "")

/-- The directories to search: those visible below a root, and those of the given files. -/
def scope (files : Files) (root : String) (sources : List String) : List String :=
  let below := ((files.entry? root).map (visibleDirectories root)).getD []
  (dropSamePaths (below ++ sources.filterMap directoryOf?)).mergeSort Files.Path.le

/-- The file in which a type of this qualified name is declared. -/
def typeFile (directory : String) (name : List String) : String :=
  Files.Path.join (name.dropLast.foldl Files.Path.join directory) (name.getLastD "" ++ ".java")

/-- The unit in a file, if it can be read. -/
def loadUnit? (files : Files) (path : String) : Option CompilationUnit :=
  (files.text? path).bind fun text => (CompilationUnit.ofText path text).toOption

/-- How many names a package is made of. -/
def packageLength (u : CompilationUnit) : Nat :=
  match u.package with
  | some package => (segments '.' package).length
  | none => 0

/-- The type of a unit whose file the first names say, and the others its path in the file. The
package of the unit has to be as long as its place says. -/
def typeOf? (name : List String) (fileNames : Nat) (u : CompilationUnit) : Option FoundType :=
  if packageLength u + 1 = fileNames then
    (u.typeByPath? (name.drop (fileNames - 1))).map (.declared u)
  else none

def declaredIn? (files : Files) (directory : String) (name : List String) (fileNames : Nat) :
    Option FoundType :=
  (loadUnit? files (typeFile directory (name.take fileNames))).bind (typeOf? name fileNames)

/-- How many of the names may say the file, the most first. -/
def fileLengths (name : List String) : List Nat := (List.range' 1 name.length).reverse

/-- A type of this qualified name, where the longest path of a file that declares it counts. -/
def declaredType? (files : Files) (directory qualifiedName : String) : Option FoundType :=
  let name := segments '.' qualifiedName
  (fileLengths name).findSome? (declaredIn? files directory name)

/-- Where types are looked up. -/
inductive Origin where
  | directory (path : String)
  | builtin
  deriving DecidableEq, Repr

def Origin.find? (files : Files) (name : String) : Origin → Option FoundType
  | directory path => declaredType? files path name
  | builtin => (BuiltinType.ofName? name).map .builtin

/-- The type of this qualified name that the first origin to know one gives. -/
def findType? (files : Files) (origins : List Origin) (name : String) : Option FoundType :=
  origins.findSome? (·.find? files name)

/-- All directories of a scope, and the known types at last. -/
def originsOf (directories : List String) : List Origin :=
  directories.map .directory ++ [.builtin]

end StructureGraph.Resolution
