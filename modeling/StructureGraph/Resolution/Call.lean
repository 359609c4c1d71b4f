import StructureGraph.Resolution.Search
import StructureGraph.Text.Letter

namespace StructureGraph.Resolution

open StructureGraph.Java
open StructureGraph.Text (beforeLast? segments isUppercase)

/-- Why a call stays unresolved. -/
inductive Obstacle where
  | noEnclosingType (method : String)
  | untypedReceiver (expression : String)
  | unknownReceiverType (method : String)
  | ambiguous (method : String)
  | noMethod (method : String)
  | noMethodInScope (method : String)
  deriving DecidableEq, Repr

def Obstacle.message : Obstacle → String
  | noEnclosingType m => "no enclosing type for \x60" ++ m ++ "\x60"
  | untypedReceiver e => "untyped receiver \x60" ++ e ++ "\x60"
  | unknownReceiverType m => "unknown receiver type for \x60" ++ m ++ "\x60"
  | ambiguous m => "ambiguous call \x60" ++ m ++ "\x60"
  | noMethod m => "no method \x60" ++ m ++ "\x60"
  | noMethodInScope m => "no method \x60" ++ m ++ "\x60 in scope"

inductive Outcome where
  | resolved (signature : String)
  | unresolved (obstacle : Obstacle)
  deriving DecidableEq, Repr

/-- Where a call stands: in a body of a type of a unit. -/
structure Site where
  unit : CompilationUnit
  declaration : TypeDeclaration
  body : Method
  deriving DecidableEq, Repr

namespace Site

/-- The enclosing types and the type itself, innermost first. -/
def enclosing (s : Site) : List TypeDeclaration :=
  let path := s.declaration.path
  (List.range path.length).reverse.filterMap fun i => s.unit.typeByPath? (path.take (i + 1))

/-- The written type of a variable: a local or a parameter of the body, or a field of an enclosing
type. -/
def variableType? (s : Site) (name : String) : Option String :=
  (s.body.variableType? name).or
    (s.enclosing.findSome? fun d => (d.field? name).map Field.typeName)

/-- The simple type of an argument, where the source shows it. -/
def argumentType? (s : Site) : Argument → Option String
  | .known type => some (TypeText.simple type)
  | .variable name => (s.variableType? name).map TypeText.simple
  | .unknown => none

def argumentTypes (s : Site) (c : Call) : List (Option String) :=
  c.arguments.map s.argumentType?

def writtenType? (s : Site) (written : String) : Inquiry FoundType (Option FoundType) :=
  Resolution.writtenType? s.unit s.declaration.path written

/-- A name may be dotted, and a simple one that begins in uppercase may be a type. -/
def mayBeType (name : String) : Bool :=
  name.toList.contains '.' || name.toList.head?.any isUppercase

/-- The type of what a name in front of a call stands for: a variable, else a type. -/
def namedType? (s : Site) (name : String) : Inquiry FoundType (Option FoundType) :=
  let declared := if name.toList.contains '.' then none else s.variableType? name
  match declared with
  | some type => s.writtenType? type
  | none => if mayBeType name then s.writtenType? name else pure none

/-- The verdict of the enclosing types, innermost first, on a call with no receiver. -/
def inherited (s : Site) (c : Call) : List TypeDeclaration → Inquiry FoundType Verdict
  | [] => pure .missing
  | d :: ds => do
    match ← lookup (.declared s.unit d) c.name (s.argumentTypes c) with
    | .missing => s.inherited c ds
    | verdict => pure verdict

/-- The type whose members a static import makes visible under a method name. -/
def importedOwner? (name : String) (i : Import) : Option String :=
  if i.isWildcard then some i.path
  else if i.simpleName? = some name then beforeLast? '.' i.path
  else none

/-- The first signature that static imports give to a call with no receiver. -/
def imported (s : Site) (c : Call) : List String → Inquiry FoundType Verdict
  | [] => pure .missing
  | owner :: owners => do
    match ← Inquiry.type? owner with
    | none => s.imported c owners
    | some t =>
      match ← lookup t c.name (s.argumentTypes c) with
      | .signature text => pure (.signature text)
      | _ => s.imported c owners

def staticOwners (s : Site) (name : String) : List String :=
  (s.unit.imports.filter (·.isStatic)).filterMap (importedOwner? name)

/-- A call with no receiver means a method of an enclosing type, else a statically imported one. -/
def resolveImplicit (s : Site) (c : Call) : Inquiry FoundType Outcome := do
  match ← s.inherited c s.enclosing with
  | .signature text => pure (.resolved text)
  | .ambiguous => pure (.unresolved (.ambiguous c.name))
  | .missing =>
    match ← s.imported c (s.staticOwners c.name) with
    | .signature text => pure (.resolved text)
    | _ => pure (.unresolved (.noMethodInScope c.name))

/-- The type on which a call with a receiver is made. -/
def receiverType? (s : Site) : Receiver → Inquiry FoundType (Option FoundType)
  | .implicit | .this => pure (some (.declared s.unit s.declaration))
  | .super =>
    match s.declaration.superclass with
    | some parent => s.writtenType? parent
    | none => Inquiry.type? "java.lang.Object"
  | .thisField name =>
    match s.declaration.field? name with
    | some f => s.writtenType? f.typeName
    | none => pure none
  | .name text => s.namedType? text
  | .created type | .cast type => s.writtenType? type
  | .expression _ => pure none

def resolveOn (s : Site) (c : Call) : Option FoundType → Inquiry FoundType Outcome
  | none => pure (.unresolved (.unknownReceiverType c.name))
  | some t => do
    match ← lookup t c.name (s.argumentTypes c) with
    | .signature text => pure (.resolved text)
    | .ambiguous => pure (.unresolved (.ambiguous c.name))
    | .missing => pure (.unresolved (.noMethod c.name))

def resolve (s : Site) (c : Call) : Inquiry FoundType Outcome :=
  match c.receiver with
  | .implicit => s.resolveImplicit c
  | .expression text => pure (.unresolved (.untypedReceiver text))
  | receiver => do
    let type ← s.receiverType? receiver
    s.resolveOn c type

end Site

/-- Resolve a call in a body of the type with this index. -/
def resolveAt (u : CompilationUnit) (index : Nat) (body : Method) (c : Call) :
    Inquiry FoundType Outcome :=
  match u.types[index]? with
  | some d => Site.resolve ⟨u, d, body⟩ c
  | none => pure (.unresolved (.noEnclosingType c.name))

end StructureGraph.Resolution
