import StructureGraph.Fact
import StructureGraph.Java.Signature

namespace StructureGraph.Java

open StructureGraph.Text (lastSegment)

/-- Which facts are wanted. -/
structure FactSelection where
  methods : Bool := true
  methodCalls : Bool := true
  classFields : Bool := true
  inheritance : Bool := true
  imports : Bool := true
  interfaceImplementations : Bool := true
  controlFlow : Bool := true
  onlyPublicMethods : Bool := false
  omitPrivateMethodCalls : Bool := false
  deriving DecidableEq, Repr

namespace FactSelection

/-- The types a declaration extends: its superclass, or the interfaces of an interface. -/
def parents (d : TypeDeclaration) : List String :=
  d.superclass.toList ++ if d.kind = .interfaceType then d.interfaces else []

def isOwnPrivate (d : TypeDeclaration) (c : Call) : Bool :=
  (c.receiver == .implicit || c.receiver == .this) && d.hasPrivateMethod c.name

def callFacts (s : FactSelection) (d : TypeDeclaration) (m : Method) : List Fact :=
  (m.calls.filter fun c => !(s.omitPrivateMethodCalls && isOwnPrivate d c)).map fun c =>
    .methodCall d.name m.name c.name

def methodFacts (s : FactSelection) (d : TypeDeclaration) (m : Method) : List Fact :=
  .methodDeclared d.name m.name (some m.visibility.text) ::
    ((if s.methodCalls then s.callFacts d m else []) ++
     (if s.controlFlow then m.branches.map fun b => .controlFlow d.name m.name b.kind b.condition
      else []))

/-- Methods count if they are significant, where that is known, and public, where that is asked. -/
def includes (s : FactSelection) (significant : Option (List String)) (u : CompilationUnit)
    (d : TypeDeclaration) (m : Method) : Bool :=
  (match significant with
    | some signatures => signatures.contains (u.methodSignature d m)
    | none => true) &&
  !(s.onlyPublicMethods && m.visibility != .publicAccess)

def typeFacts (s : FactSelection) (significant : Option (List String)) (u : CompilationUnit)
    (d : TypeDeclaration) : List Fact :=
  [.classDeclared d.name] ++
    (if s.inheritance then (parents d).map fun p => .inherits d.name (lastSegment '.' p)
      else []) ++
    (if s.interfaceImplementations && d.kind != .interfaceType then
      d.interfaces.map fun i => .implements d.name (lastSegment '.' i)
      else []) ++
    (if s.imports then u.imports.map fun i => .imports d.name i.displayName else []) ++
    (if s.classFields then
      d.fields.map fun f => .fieldDeclared d.name f.name f.typeName f.visibility.text
      else []) ++
    (if s.methods then
      (d.methods.filter (s.includes significant u d)).flatMap (s.methodFacts d)
      else [])

/-- All facts of a unit, in the order in which they are stated. -/
def facts (s : FactSelection) (significant : Option (List String)) (u : CompilationUnit) :
    List Fact :=
  u.types.flatMap (s.typeFacts significant u)

end FactSelection

end StructureGraph.Java
