import StructureGraph.Text.Blank
import StructureGraph.Text.Segments

namespace StructureGraph.Input

inductive Location where
  | path (text : String)
  | repository (address : String)
  deriving DecidableEq, Repr, Inhabited

namespace Location

def remoteBeginnings : List String := ["https://", "http://", "ssh://", "git@"]

def isRemote (text : String) : Bool :=
  remoteBeginnings.any fun b => (Text.dropPrefix? b text).isSome

/-- Blanks around a location do not belong to it. -/
def ofText (text : String) : Location :=
  let trimmed := Text.trim text
  if isRemote trimmed then .repository trimmed else .path trimmed

def path? : Location → Option String
  | path text => some text
  | repository _ => none

end Location

end StructureGraph.Input
