import StructureGraph.Glob.Reader
import StructureGraph.Text.Blank
import StructureGraph.Text.Segments

namespace StructureGraph.Input

open StructureGraph.Text (trimEnd dropPrefix? dropSuffix?)

structure IgnoreRule where
  glob : Glob
  /-- What matches is not left out. -/
  isException : Bool
  directoriesOnly : Bool
  deriving Repr

namespace IgnoreRule

def hasSlash (s : String) : Bool := s.toList.contains '/'

def beginsWith (s beginning : String) : Bool := beginning.toList.isPrefixOf s.toList

def endsWith (s ending : String) : Bool := ending.toList.isSuffixOf s.toList

/-- The marks in front of a pattern: whether it is an exception, whether it holds from the directory
of the rule on, and the pattern without them. -/
def splitFront (line : String) : Bool × Bool × String :=
  if beginsWith line "\\!" || beginsWith line "\\#" then
    (false, false, (dropPrefix? "\\" line).getD line)
  else
    let (isException, rest) :=
      match dropPrefix? "!" line with
      | some rest => (true, rest)
      | none => (false, line)
    match dropPrefix? "/" rest with
    | some rest => (isException, true, rest)
    | none => (isException, false, rest)

/-- A slash at the end of a pattern, escaped or not, and the pattern without it. -/
def splitEnd (pattern : String) : Bool × String :=
  match dropSuffix? "/" pattern with
  | some rest => (true, (dropSuffix? "\\" rest).getD rest)
  | none => (false, pattern)

/-- A pattern without a slash holds at every depth. One for all that is below a directory does not
match the directory. -/
def complete (anchored : Bool) (pattern : String) : String :=
  let everywhere :=
    if anchored || hasSlash pattern || beginsWith pattern "**/" || pattern == "**" then pattern
    else "**/" ++ pattern
  if endsWith everywhere "/**" then everywhere ++ "/*" else everywhere

/-- The rule of a line. Comments, blank lines and patterns that cannot be read give none. Blanks at
the end do not count unless the last one is escaped. -/
def ofLine? (line : String) : Option IgnoreRule :=
  if beginsWith line "#" then none
  else
    let line := if endsWith line "\\ " then line else trimEnd line
    if line = "" then none
    else
      let (isException, anchored, pattern) := splitFront line
      let (directoriesOnly, pattern) := splitEnd pattern
      match Glob.read true true (complete anchored pattern) with
      | .ok glob => some ⟨glob, isException, directoriesOnly⟩
      | .error _ => none

def applies (r : IgnoreRule) (path : String) (isDirectory : Bool) : Bool :=
  (isDirectory || !r.directoriesOnly) && r.glob.matches path

end IgnoreRule

abbrev IgnoreRules := List IgnoreRule

namespace IgnoreRules

/-- Cut bytes at line breaks; `line` holds the current line reversed. -/
def cutLines (line : List UInt8) : List UInt8 → List (List UInt8)
  | [] => if line.isEmpty then [] else [line.reverse]
  | b :: bs =>
    if b == 10 then
      (match line with
        | 13 :: before => before
        | all => all).reverse :: cutLines [] bs
    else cutLines (b :: line) bs

/-- The lines up to the first one that is no text. -/
def textLines (bytes : ByteArray) : List String :=
  let lines := (cutLines [] bytes.data.toList).map fun l => String.fromUTF8? ⟨l.toArray⟩
  (lines.takeWhile Option.isSome).filterMap id

/-- A mark of the byte order in front of the first line is no part of it. -/
def dropByteOrderMark : List String → List String
  | [] => []
  | line :: lines => (dropPrefix? "\ufeff" line).getD line :: lines

def ofBytes (bytes : ByteArray) : IgnoreRules :=
  (dropByteOrderMark (textLines bytes)).filterMap IgnoreRule.ofLine?

/-- Whether a path below the directory of the rules is kept or left out, if a rule says so. -/
def verdict? (rs : IgnoreRules) (path : String) (isDirectory : Bool) : Option Bool :=
  (rs.reverse.find? (·.applies path isDirectory)).map (·.isException)

end IgnoreRules

end StructureGraph.Input
