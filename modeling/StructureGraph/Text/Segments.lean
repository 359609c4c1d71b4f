
namespace StructureGraph.Text

/-- Cut at every separator; `segment` holds the current segment reversed. -/
def segmentsFrom (separator : Char) (segment : List Char) : List Char → List (List Char)
  | [] => [segment.reverse]
  | c :: cs =>
    if c == separator then segment.reverse :: segmentsFrom separator [] cs
    else segmentsFrom separator (c :: segment) cs

/-- The segments between separators, of which there is one more than separators. -/
def segments (separator : Char) (s : String) : List String :=
  (segmentsFrom separator [] s.toList).map String.ofList

/-- The text behind the last separator, or all of it if there is none. -/
def lastSegment (separator : Char) (s : String) : String :=
  String.ofList (s.toList.reverse.takeWhile (· != separator)).reverse

/-- The text before the last separator, if there is one. -/
def beforeLast? (separator : Char) (s : String) : Option String :=
  match s.toList.reverse.dropWhile (· != separator) with
  | [] => none
  | _ :: before => some (String.ofList before.reverse)

/-- The two sides of the first separator, if there is one. -/
def cutFirst? (separator : Char) (s : String) : Option (String × String) :=
  match s.toList.dropWhile (· != separator) with
  | [] => none
  | _ :: after => some (String.ofList (s.toList.takeWhile (· != separator)), String.ofList after)

/-- What follows the given beginning, if the text begins so. -/
def dropPrefix? (beginning s : String) : Option String :=
  (beginning.toList.isPrefixOf? s.toList).map String.ofList

def dropSuffix? (ending s : String) : Option String :=
  (ending.toList.reverse.isPrefixOf? s.toList.reverse).map fun r => String.ofList r.reverse

end StructureGraph.Text
