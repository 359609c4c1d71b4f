import StructureGraph.Text.Blank

namespace StructureGraph.Java.TypeText

open StructureGraph.Text (isBlank)

/-- Keep what stands outside of all angle brackets and is no blank; `depth` counts the brackets
open so far. -/
def eraseFrom : Nat → List Char → List Char
  | _, [] => []
  | depth, c :: cs =>
    if c = '<' then eraseFrom (depth + 1) cs
    else if c = '>' then eraseFrom (depth - 1) cs
    else if depth = 0 ∧ isBlank c = false then c :: eraseFrom depth cs
    else eraseFrom depth cs

/-- A type without its type arguments and blanks. -/
def erase (written : String) : String :=
  String.ofList (eraseFrom 0 written.toList)

end StructureGraph.Java.TypeText
