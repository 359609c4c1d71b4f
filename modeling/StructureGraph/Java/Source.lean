import StructureGraph.Java.Extraction
import StructureGraph.Java.Syntax.Grammar

namespace StructureGraph.Java

inductive SourceError where
  | unreadable (path : String)
  | malformed (origin : String)
  deriving DecidableEq, Repr

namespace SourceError

def message : SourceError → String
  | unreadable path => "Failed to read " ++ path
  | malformed origin => "Failed to parse " ++ origin ++ ": syntax error"

end SourceError

namespace CompilationUnit

/-- The declarations of a source text. -/
def ofText (origin text : String) : Except SourceError CompilationUnit :=
  match Syntax.parse? text with
  | some tree => .ok (Extraction.compilationUnit tree)
  | none => .error (.malformed origin)

end CompilationUnit

end StructureGraph.Java
