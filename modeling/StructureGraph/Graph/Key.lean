import StructureGraph.Text.Blank
import StructureGraph.Text.Segments

namespace StructureGraph.Graph

open StructureGraph.Text (segments trim)

inductive NodeKind where
  | classNode
  | methodNode
  | callNode
  | controlFlowNode
  | fieldNode
  | importNode
  | interfaceNode
  deriving DecidableEq, Repr, Inhabited

namespace NodeKind

def all : List NodeKind :=
  [classNode, methodNode, callNode, controlFlowNode, fieldNode, importNode, interfaceNode]

def label : NodeKind → String
  | classNode => "Class"
  | methodNode => "Method"
  | callNode => "MethodCall"
  | controlFlowNode => "ControlFlow"
  | fieldNode => "ClassField"
  | importNode => "Import"
  | interfaceNode => "Interface"

/-- Nodes are ordered by kind first, and kinds by this number. -/
def rank : NodeKind → Nat
  | classNode => 0
  | methodNode => 1
  | callNode => 2
  | controlFlowNode => 3
  | fieldNode => 4
  | importNode => 5
  | interfaceNode => 6

def ofLabel? (label : String) : Option NodeKind :=
  all.find? (·.label == label)

theorem mem_all (k : NodeKind) : k ∈ all := by
  cases k <;> decide

end NodeKind

inductive RelationKind where
  | hasMethod
  | calls
  | contains
  | inherits
  | implements
  | hasField
  | imports
  deriving DecidableEq, Repr, Inhabited

namespace RelationKind

def all : List RelationKind :=
  [hasMethod, calls, contains, inherits, implements, hasField, imports]

def label : RelationKind → String
  | hasMethod => "HAS_METHOD"
  | calls => "CALLS"
  | contains => "CONTAINS"
  | inherits => "EXTENDS"
  | implements => "IMPLEMENTS"
  | hasField => "HAS_FIELD"
  | imports => "IMPORTS"

def rank : RelationKind → Nat
  | hasMethod => 0
  | calls => 1
  | contains => 2
  | inherits => 3
  | implements => 4
  | hasField => 5
  | imports => 6

def ofLabel? (label : String) : Option RelationKind :=
  all.find? (·.label == label)

theorem mem_all (r : RelationKind) : r ∈ all := by
  cases r <;> decide

def sourceKind : RelationKind → NodeKind
  | hasMethod | inherits | implements | hasField | imports => .classNode
  | calls | contains => .methodNode

def targetKind : RelationKind → NodeKind
  | hasMethod => .methodNode
  | calls => .callNode
  | contains => .controlFlowNode
  | inherits => .classNode
  | implements => .interfaceNode
  | hasField => .fieldNode
  | imports => .importNode

end RelationKind

structure NodeKey where
  kind : NodeKind
  text : String
  deriving DecidableEq, Repr, Inhabited

/-- The unit separator stands between the parts of a key. -/
def separator : Char := '\x1f'

def joinParts (parts : List String) : String :=
  String.intercalate (String.singleton separator) parts

namespace NodeKey

def ofClass (name : String) : NodeKey := ⟨.classNode, name⟩

def ofMethod (name : String) : NodeKey := ⟨.methodNode, name⟩

def ofCall (callee : String) : NodeKey := ⟨.callNode, callee⟩

def ofInterface (name : String) : NodeKey := ⟨.interfaceNode, name⟩

def ofImport (name : String) : NodeKey := ⟨.importNode, name⟩

def ofControlFlow (kind condition : String) : NodeKey :=
  ⟨.controlFlowNode, joinParts [kind, condition]⟩

def ofField (name type visibility : String) : NodeKey :=
  ⟨.fieldNode, joinParts [name, type, visibility]⟩

def parts (k : NodeKey) : List String := segments separator k.text

/-- The first part names the node and may not be blank; later parts may be empty. -/
def isValid (k : NodeKey) : Bool := trim (k.parts.headD "") != ""

def display (k : NodeKey) : String :=
  k.kind.label ++ "(" ++ String.intercalate ", " k.parts ++ ")"

/-- Keys are ordered by kind, then by text. -/
def lt (a b : NodeKey) : Prop :=
  a.kind.rank < b.kind.rank ∨ (a.kind = b.kind ∧ a.text < b.text)

instance : LT NodeKey := ⟨lt⟩

instance (a b : NodeKey) : Decidable (a < b) :=
  inferInstanceAs (Decidable (_ ∨ _))

def le (a b : NodeKey) : Bool := !decide (b < a)

end NodeKey

end StructureGraph.Graph
