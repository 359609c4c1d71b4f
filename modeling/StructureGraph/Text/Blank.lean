import StructureGraph.Text.Ranges

namespace StructureGraph.Text

/-- Code points with the property White_Space. -/
def blankRanges : Ranges :=
  [(9, 13), (32, 32), (133, 133), (160, 160), (5760, 5760), (8192, 8202), (8232, 8233),
   (8239, 8239), (8287, 8287), (12288, 12288)]

def isBlank (c : Char) : Bool :=
  blankRanges.contains c

/-- The maximal stretches without a blank, in order; `word` holds the current one reversed. -/
def wordsFrom (word : List Char) : List Char → List (List Char)
  | [] => if word.isEmpty then [] else [word.reverse]
  | c :: cs =>
    if isBlank c then
      if word.isEmpty then wordsFrom [] cs else word.reverse :: wordsFrom [] cs
    else wordsFrom (c :: word) cs

def words (s : String) : List String :=
  (wordsFrom [] s.toList).map String.ofList

/-- Every run of blanks becomes one space, and none is left at either end. -/
def collapse (s : String) : String :=
  String.intercalate " " (words s)

def trimStart (s : String) : String :=
  String.ofList (s.toList.dropWhile isBlank)

def trimEnd (s : String) : String :=
  String.ofList (s.toList.reverse.dropWhile isBlank).reverse

def trim (s : String) : String :=
  trimEnd (trimStart s)

end StructureGraph.Text
