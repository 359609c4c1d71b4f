import StructureGraph.Text.Segments

namespace StructureGraph.CommandLine

inductive Argument where
  /-- Two dashes and nothing else. -/
  | separator
  /-- A name after two dashes, and what follows the first equals sign if there is one. -/
  | long (name : String) (value : Option String)
  /-- Letters after one dash. -/
  | short (letters : List Char)
  | word (text : String)
  deriving DecidableEq, Repr

namespace Argument

def ofLong (body : List Char) : Argument :=
  let name := String.ofList (body.takeWhile (· != '='))
  match body.dropWhile (· != '=') with
  | [] => .long name none
  | _ :: value => .long name (some (String.ofList value))

/-- A dash alone is a word. -/
def ofText (text : String) : Argument :=
  match text.toList with
  | ['-', '-'] => .separator
  | '-' :: '-' :: body => ofLong body
  | '-' :: letter :: letters => .short (letter :: letters)
  | _ => .word text

end Argument

end StructureGraph.CommandLine
