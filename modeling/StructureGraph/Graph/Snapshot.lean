import StructureGraph.Graph.Error
import StructureGraph.Json.Printer
import StructureGraph.Json.Reader

namespace StructureGraph.Graph.Snapshot

open StructureGraph.Json (Value)

def keyJson (k : NodeKey) : Value :=
  .object [("kind", .string k.kind.label), ("key", .string k.text)]

def propertiesJson (ps : Properties) : Value :=
  .object (ps.entries.map fun e => (e.1, .string e.2))

def nodeJson (n : Node) : Value :=
  .object [("key", keyJson n.key), ("properties", propertiesJson n.properties)]

def relationshipJson (r : Relationship) : Value :=
  .object
    [("from", keyJson r.source), ("relationship", .string r.kind.label), ("to", keyJson r.target)]

def toJson (g : PropertyGraph) : Value :=
  .object
    [("version", .ofNat snapshotVersion),
     ("nodes", .array (g.nodes.map nodeJson)),
     ("relationships", .array (g.relationships.map relationshipJson))]

def toText (g : PropertyGraph) : String :=
  Json.compact (toJson g) ++ "\n"

/-- A label is a string, or an object whose only field has its name and the value null. -/
def label? : Value → Option String
  | .string s => some s
  | .object [(s, .null)] => some s
  | _ => none

def key? (v : Value) : Option NodeKey := do
  let [some kind, some text] ← v.record? ["kind", "key"] | none
  let kind ← NodeKind.ofLabel? (← label? kind)
  let text ← text.string?
  pure ⟨kind, text⟩

def property? (field : String × Value) : Option (String × String) :=
  field.2.string?.map (field.1, ·)

def properties? : Value → Option Properties
  | .object fields => (fields.mapM property?).map .ofList
  | _ => none

def node? (v : Value) : Option Node := do
  let [some key, properties] ← v.record? ["key", "properties"] | none
  let key ← key? key
  match properties with
  | none => pure ⟨key, .empty⟩
  | some properties => pure ⟨key, ← properties? properties⟩

def relationship? (v : Value) : Option Relationship := do
  let [some source, some kind, some target] ← v.record? ["from", "relationship", "to"] | none
  let source ← key? source
  let kind ← RelationKind.ofLabel? (← label? kind)
  let target ← key? target
  pure ⟨source, kind, target⟩

def version? (v : Value) : Option Nat := do
  let n ← v.nat?
  if n < UInt32.size then pure n else none

/-- What a snapshot file says, before any of it is believed. -/
structure Contents where
  version : Nat
  nodes : List Node
  relationships : List Relationship

def contents? (v : Value) : Option Contents := do
  let [some version, some nodes, some relationships] ←
    v.record? ["version", "nodes", "relationships"] | none
  let version ← version? version
  let nodes ← (← nodes.items?).mapM node?
  let relationships ← (← relationships.items?).mapM relationship?
  pure ⟨version, nodes, relationships⟩

/-- Add a relationship between nodes that are there. -/
def connect (g : PropertyGraph) (r : Relationship) : Except GraphError PropertyGraph :=
  match g.indexOf? r.source with
  | none => .error (.missingEndpoint r.source)
  | some i =>
    match g.indexOf? r.target with
    | none => .error (.missingEndpoint r.target)
    | some j => .ok (g.mergeEdge ⟨i, r.kind, j⟩)

def load (c : Contents) : Except GraphError PropertyGraph :=
  if c.version = snapshotVersion then
    c.relationships.foldlM connect (c.nodes.foldl PropertyGraph.mergeNode .empty)
  else .error (.snapshotVersion c.version)

def ofText (text : String) : Except GraphError PropertyGraph :=
  match (Json.read? text).bind contents? with
  | some c => load c
  | none => .error .snapshotJson

end StructureGraph.Graph.Snapshot
