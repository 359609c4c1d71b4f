
namespace StructureGraph.Files

inductive Entry where
  | file (bytes : ByteArray)
  | directory (entries : List (String × Entry))
  deriving Inhabited

namespace Entry

def isFile : Entry → Bool
  | file _ => true
  | directory _ => false

def isDirectory (e : Entry) : Bool := !e.isFile

/-- The named entries of a directory. -/
def entries : Entry → List (String × Entry)
  | file _ => []
  | directory es => es

def child? (e : Entry) (name : String) : Option Entry :=
  (e.entries.find? (·.1 == name)).map Prod.snd

def descend? : Entry → List String → Option Entry
  | e, [] => some e
  | e, n :: ns => (e.child? n).bind (·.descend? ns)

/-- Put an entry into a directory, in place of one of the same name. -/
def putChild (name : String) (new : Entry) : List (String × Entry) → List (String × Entry)
  | [] => [(name, new)]
  | e :: es => if e.1 = name then (name, new) :: es else e :: putChild name new es

/-- Put an entry at a place whose parent is there. -/
def put : List String → Entry → Entry → Entry
  | [], _, new => new
  | n :: ns, directory es, new =>
    if ns = [] then directory (putChild n new es)
    else
      match (directory es).child? n with
      | some e => directory (putChild n (put ns e new) es)
      | none => directory es
  | _, file bytes, _ => file bytes

def removeChild (name : String) (es : List (String × Entry)) : List (String × Entry) :=
  es.filter (·.1 != name)

def remove : List String → Entry → Entry
  | n :: ns, directory es =>
    if ns = [] then directory (removeChild n es)
    else
      match (directory es).child? n with
      | some e => directory (putChild n (remove ns e) es)
      | none => directory es
  | _, e => e

end Entry

end StructureGraph.Files
