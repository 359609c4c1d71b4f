import StructureGraph.Java.Declaration
import StructureGraph.Java.TypeText
import StructureGraph.Text.Segments

namespace StructureGraph.Java

open StructureGraph.Text (lastSegment)

def primitives : List String :=
  ["boolean", "byte", "char", "short", "int", "long", "float", "double", "void"]

/-- The types of `java.lang` that win over types of the same package. -/
def langTypes : List String :=
  ["Boolean", "Byte", "CharSequence", "Character", "Class", "Comparable", "Double", "Enum",
   "Error", "Exception", "Float", "IllegalArgumentException", "IllegalStateException", "Integer",
   "Iterable", "Long", "Math", "Number", "Object", "Runnable", "RuntimeException", "Short",
   "String", "StringBuilder", "System", "Thread", "Throwable", "Void"]

def isPrimitive (name : String) : Bool := primitives.contains name

def isLangType (name : String) : Bool := langTypes.contains name

namespace Import

def displayName (i : Import) : String :=
  if i.isWildcard then i.path ++ ".*" else i.path

def simpleName? (i : Import) : Option String :=
  if i.isWildcard then none else some (lastSegment '.' i.path)

end Import

namespace TypeText

/-- Brackets of arrays and dots of variable argument lists. -/
def isSuffix (c : Char) : Bool := c == '[' || c == ']' || c == '.'

def base (erased : String) : String :=
  String.ofList (erased.toList.reverse.dropWhile isSuffix).reverse

def suffix (erased : String) : String :=
  String.ofList (erased.toList.reverse.takeWhile isSuffix).reverse

/-- The last name of a type with its array brackets, by which types are compared. -/
def simple (written : String) : String :=
  let erased := erase written
  let name := lastSegment '.' (base erased)
  if suffix erased = "..." then name else name ++ suffix erased

end TypeText

namespace CompilationUnit

def inPackage (u : CompilationUnit) (name : String) : String :=
  match u.package with
  | some package => package ++ "." ++ name
  | none => name

/-- The qualified name of a type of the unit. -/
def typePath (u : CompilationUnit) (d : TypeDeclaration) : String :=
  u.inPackage (String.intercalate "." d.path)

/-- The import of a single type that gives this simple name its meaning. -/
def singleImport? (u : CompilationUnit) (name : String) : Option Import :=
  u.imports.find? fun i => !i.isStatic && i.simpleName? == some name

def wildcardImports (u : CompilationUnit) : List Import :=
  u.imports.filter fun i => i.isWildcard && !i.isStatic

/-- The qualified names that a type name written inside the given types may mean, the likeliest
first. -/
def typeCandidates (u : CompilationUnit) (scope : List String) (written : String) :
    List String :=
  let name := TypeText.base (TypeText.erase written)
  if name = "" ∨ isPrimitive name ∨ name.toList.contains '.' then [name]
  else
    match u.singleImport? name with
    | some i => [i.path]
    | none =>
      match u.visibleType? scope name with
      | some d => [u.typePath d]
      | none =>
        let near := u.inPackage name :: u.wildcardImports.map fun i => i.path ++ "." ++ name
        let lang := "java.lang." ++ name
        if isLangType name then lang :: near else near ++ [lang]

def qualifyType (u : CompilationUnit) (scope : List String) (written : String) : String :=
  (u.typeCandidates scope written).headD "" ++ TypeText.suffix (TypeText.erase written)

def qualifiedParameter (u : CompilationUnit) (scope : List String) (p : Parameter) : String :=
  let type := u.qualifyType scope p.typeName
  if p.varargs then type ++ "..." else type

def methodSignature (u : CompilationUnit) (d : TypeDeclaration) (m : Method) : String :=
  u.typePath d ++ "." ++ m.name ++ "(" ++
    String.intercalate ", " (m.parameters.map (u.qualifiedParameter d.path)) ++ ")"

end CompilationUnit

end StructureGraph.Java
