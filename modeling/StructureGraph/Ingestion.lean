import StructureGraph.Fact
import StructureGraph.Graph.Store

namespace StructureGraph

open StructureGraph.Graph

/-- What tells methods apart. -/
inductive MethodKeying where
  /-- Methods of one name are one, whatever class declares them. -/
  | bareName
  | classQualified
  deriving DecidableEq, Repr, Inhabited

def MethodKeying.key : MethodKeying → String → String → NodeKey
  | bareName, _, method => .ofMethod method
  | classQualified, owner, method => .ofMethod (owner ++ "." ++ method)

namespace Fact

/-- A node with its attributes. -/
def node (key : NodeKey) (attributes : List (String × String)) : Node :=
  ⟨key, .ofList attributes⟩

def classNode (name : String) : Node := node (.ofClass name) []

/-- Merge both ends of a relationship, then the relationship. -/
def relate (source : Node) (kind : RelationKind) (target : Node) : Transaction :=
  [.node source, .node target, .relationship ⟨source.key, kind, target.key⟩]

def methodNode (k : MethodKeying) (owner name : String) (visibility : Option String) : Node :=
  node (k.key owner name)
    (("name", name) :: visibility.toList.map ("visibility", ·))

def fieldNode (name type visibility : String) : Node :=
  node (.ofField name type visibility)
    [("name", name), ("type", type), ("visibility", visibility)]

def controlFlowNode (kind condition : String) : Node :=
  node (.ofControlFlow kind condition) [("type", kind), ("condition", condition)]

def transaction (k : MethodKeying) : Fact → Transaction
  | classDeclared name => [.node (classNode name)]
  | methodDeclared owner name visibility =>
    relate (classNode owner) .hasMethod (methodNode k owner name visibility)
  | methodCall owner caller callee =>
    relate (methodNode k owner caller none) .calls (node (.ofCall callee) [("name", callee)])
  | controlFlow owner method kind condition =>
    relate (methodNode k owner method none) .contains (controlFlowNode kind condition)
  | inherits owner parent => relate (classNode owner) .inherits (classNode parent)
  | implements owner interface =>
    relate (classNode owner) .implements (node (.ofInterface interface) [("name", interface)])
  | fieldDeclared owner name type visibility =>
    relate (classNode owner) .hasField (fieldNode name type visibility)
  | imports owner imported =>
    relate (classNode owner) .imports (node (.ofImport imported) [("name", imported)])

end Fact

inductive IngestError where
  /-- The store refuses one fact. -/
  | write (fact : Fact) (cause : GraphError)
  /-- The store cannot be used any more. -/
  | connectivity (cause : GraphError)
  deriving DecidableEq, Repr

namespace IngestError

def ofStore (f : Fact) (e : GraphError) : IngestError :=
  if e.isConnectivity then .connectivity e else .write f e

def isFatal : IngestError → Bool
  | connectivity _ => true
  | write _ _ => false

def fact? : IngestError → Option Fact
  | write f _ => some f
  | connectivity _ => none

def cause : IngestError → GraphError
  | write _ e | connectivity e => e

def message : IngestError → String
  | write f e => "Failed to write " ++ f.describe ++ ": " ++ e.message
  | connectivity e => "Graph store unavailable: " ++ e.message

end IngestError

inductive IngestMode where
  /-- Report facts that cannot be written, and go on. -/
  | bestEffort
  | failFast
  deriving DecidableEq, Repr

structure IngestReport where
  factsApplied : Nat
  created : WriteSummary
  /-- The facts that were not written, with the reasons. -/
  failures : List (Fact × IngestError)
  deriving DecidableEq, Repr

namespace IngestReport

def empty : IngestReport := ⟨0, .empty, []⟩

def record (r : IngestReport) (s : WriteSummary) : IngestReport :=
  { r with factsApplied := r.factsApplied + 1, created := r.created.add s }

def recordFailure (r : IngestReport) (f : Fact) (e : IngestError) : IngestReport :=
  { r with failures := r.failures ++ [(f, e)] }

def isClean (r : IngestReport) : Bool := r.failures.isEmpty

end IngestReport

namespace Graph.Store

variable {σ : Type}

/-- Write one fact. -/
def ingest (s : Store σ) (k : MethodKeying) (state : σ) (f : Fact) :
    σ × Except IngestError WriteSummary :=
  let (state', result) := s.apply state (f.transaction k)
  (state', result.mapError (.ofStore f))

/-- Write facts after others, of which a report is given. -/
def ingestFrom (s : Store σ) (k : MethodKeying) (mode : IngestMode) :
    IngestReport → σ → List Fact → σ × Except IngestError IngestReport
  | report, state, [] => (state, .ok report)
  | report, state, f :: fs =>
    match s.ingest k state f with
    | (state', .ok summary) => s.ingestFrom k mode (report.record summary) state' fs
    | (state', .error e) =>
      if e.isFatal || mode = .failFast then (state', .error e)
      else s.ingestFrom k mode (report.recordFailure f e) state' fs

/-- Write facts in order until the store cannot be used or, if that is asked, one is refused. -/
def ingestAll (s : Store σ) (k : MethodKeying) (mode : IngestMode) (state : σ)
    (facts : List Fact) : σ × Except IngestError IngestReport :=
  s.ingestFrom k mode .empty state facts

/-- Clear the store before facts are written. -/
def reset (s : Store σ) (state : σ) : Except IngestError σ :=
  (s.deleteAll state).mapError .connectivity

end Graph.Store

end StructureGraph
