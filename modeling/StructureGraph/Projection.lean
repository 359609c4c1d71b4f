import StructureGraph.Graph.Store
import StructureGraph.Json.Printer

namespace StructureGraph

open StructureGraph.Graph
open Json (Value)

structure ControlFlowStructure where
  kind : String
  condition : String
  deriving DecidableEq, Repr

structure FieldStructure where
  name : String
  type : String
  visibility : String
  deriving DecidableEq, Repr

structure MethodStructure where
  name : String
  visibility : Option String
  calls : List String
  controlFlow : List ControlFlowStructure
  deriving DecidableEq, Repr

structure ClassStructure where
  name : String
  parents : List String
  interfaces : List String
  methods : List MethodStructure
  fields : List FieldStructure
  imports : List String
  deriving DecidableEq, Repr

structure SystemStructure where
  name : Option String
  classes : List ClassStructure
  deriving DecidableEq, Repr

/-- Which classes are shown. -/
inductive ProjectionMode where
  | all
  /-- The classes with the most relationships, up to a limit. -/
  | mostSignificant (limit : Nat)
  deriving DecidableEq, Repr

namespace Projection

/-- Lists of texts are ordered by their first difference. -/
def textsLe : List String → List String → Bool
  | [], _ => true
  | _ :: _, [] => false
  | a :: as, b :: bs => decide (a < b) || (a == b && textsLe as bs)

def textLe (a b : String) : Bool := decide (a ≤ b)

/-- Drop repetitions from a sorted list. -/
def dropRepeated : List String → List String
  | a :: b :: ss => if a = b then dropRepeated (b :: ss) else a :: dropRepeated (b :: ss)
  | ss => ss

def targets (g : PropertyGraph) (k : NodeKey) (r : RelationKind) : List Node :=
  g.neighbors k r .outgoing

/-- The names of the nodes that a relationship leads to. -/
def names (g : PropertyGraph) (k : NodeKey) (r : RelationKind) : List String :=
  dropRepeated (((targets g k r).map Node.name).mergeSort textLe)

/-- An attribute of a node, which is a part of its key where it is not given. -/
def shown (n : Node) (name : String) (part : Nat) : String :=
  (n.properties.get? name).getD (n.key.parts.getD part "")

def controlFlow (n : Node) : ControlFlowStructure :=
  ⟨shown n "type" 0, shown n "condition" 1⟩

def field (n : Node) : FieldStructure :=
  ⟨shown n "name" 0, shown n "type" 1, shown n "visibility" 2⟩

def controlFlowLe (a b : ControlFlowStructure) : Bool :=
  textsLe [a.kind, a.condition] [b.kind, b.condition]

def fieldLe (a b : FieldStructure) : Bool :=
  textsLe [a.name, a.type, a.visibility] [b.name, b.type, b.visibility]

def method (g : PropertyGraph) (n : Node) : MethodStructure where
  name := n.name
  visibility := n.properties.get? "visibility"
  calls := names g n.key .calls
  controlFlow := ((targets g n.key .contains).map controlFlow).mergeSort controlFlowLe

def classStructure (g : PropertyGraph) (k : NodeKey) : ClassStructure where
  name := k.text
  parents := names g k .inherits
  interfaces := names g k .implements
  methods :=
    ((targets g k .hasMethod).map (method g)).mergeSort fun a b => textLe a.name b.name
  fields := ((targets g k .hasField).map field).mergeSort fieldLe
  imports := names g k .imports

def selected (g : PropertyGraph) : ProjectionMode → List Node
  | .all => g.nodesOfKind .classNode
  | .mostSignificant limit => (g.mostConnected .classNode limit).map Prod.fst

def project (g : PropertyGraph) (name : Option String) (mode : ProjectionMode) :
    SystemStructure :=
  ⟨name, (selected g mode).map fun n => classStructure g n.key⟩

/-- What is said of a store that cannot be read. -/
def errorMessage (e : GraphError) : String := "Graph store error: " ++ e.message

end Projection

def ControlFlowStructure.toJson (c : ControlFlowStructure) : Value :=
  .object [("type", .string c.kind), ("condition", .string c.condition)]

def FieldStructure.toJson (f : FieldStructure) : Value :=
  .object [("name", .string f.name), ("type", .string f.type), ("visibility", .string f.visibility)]

def textsJson (ss : List String) : Value := .array (ss.map .string)

def textJson? : Option String → Value
  | some s => .string s
  | none => .null

def MethodStructure.toJson (m : MethodStructure) : Value :=
  .object
    [("name", .string m.name),
     ("visibility", textJson? m.visibility),
     ("methodCalls", textsJson m.calls),
     ("controlFlow", .array (m.controlFlow.map ControlFlowStructure.toJson))]

def ClassStructure.toJson (c : ClassStructure) : Value :=
  .object
    [("name", .string c.name),
     ("extendedClasses", textsJson c.parents),
     ("implementedInterfaces", textsJson c.interfaces),
     ("methods", .array (c.methods.map MethodStructure.toJson)),
     ("fields", .array (c.fields.map FieldStructure.toJson)),
     ("imports", textsJson c.imports)]

def SystemStructure.toJson (s : SystemStructure) : Value :=
  .object
    [("systemName", textJson? s.name),
     ("classes", .array (s.classes.map ClassStructure.toJson))]

end StructureGraph
