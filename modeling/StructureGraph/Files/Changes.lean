import StructureGraph.Files.Basic

namespace StructureGraph.Files

inductive Change where
  | makeDirectory (place : List String)
  | write (place : List String) (bytes : ByteArray)
  | remove (place : List String)

namespace Entry

mutual

/-- Everything in a tree with its place, directories before what lies in them. -/
def listing (place : List String) : Entry → List (List String × Entry)
  | file bytes => [(place, file bytes)]
  | directory es => (place, directory es) :: listingAmong place es

def listingAmong (place : List String) : List (String × Entry) → List (List String × Entry)
  | [] => []
  | (n, e) :: es => listing (place ++ [n]) e ++ listingAmong place es

end

end Entry

/-- What makes an entry be at a place, if it is not there yet. -/
def change? (before : Entry) (place : List String) (e : Entry) : Option Change :=
  match before.descend? place, e with
  | some (.file old), .file new => if old == new then none else some (.write place new)
  | none, .file new => some (.write place new)
  | some (.directory _), .directory _ => none
  | _, .directory _ => some (.makeDirectory place)
  | some (.directory _), .file _ => none

def changes (before after : Entry) : List Change :=
  let removed := (before.listing []).filterMap fun (place, e) =>
    if e.isFile && (after.descend? place).isNone then some (.remove place) else none
  removed ++ (after.listing []).filterMap fun (place, e) => change? before place e

end StructureGraph.Files
