
namespace StructureGraph.Java

inductive Visibility where
  | publicAccess
  | protectedAccess
  | privateAccess
  | packageAccess
  deriving DecidableEq, Repr, Inhabited

def Visibility.text : Visibility → String
  | publicAccess => "public"
  | protectedAccess => "protected"
  | privateAccess => "private"
  | packageAccess => "package-private"

inductive TypeKind where
  | classType
  | interfaceType
  | enumType
  | recordType
  deriving DecidableEq, Repr, Inhabited

/-- An import names a type, a member of a type if static, or all in its path if a wildcard. -/
structure Import where
  path : String
  isStatic : Bool
  isWildcard : Bool
  deriving DecidableEq, Repr

structure Parameter where
  name : String
  typeName : String
  varargs : Bool
  deriving DecidableEq, Repr

structure Field where
  name : String
  typeName : String
  visibility : Visibility
  isStatic : Bool
  deriving DecidableEq, Repr

structure Local where
  name : String
  typeName : String
  deriving DecidableEq, Repr

/-- What a method is called on. -/
inductive Receiver where
  /-- Nothing is written before the method name. -/
  | implicit
  | this
  | super
  /-- A name, perhaps dotted. -/
  | name (text : String)
  /-- A field selected from `this`. -/
  | thisField (name : String)
  | created (typeName : String)
  | cast (typeName : String)
  | expression (text : String)
  deriving DecidableEq, Repr

/-- What is known of an argument's type without looking anything up. -/
inductive Argument where
  | known (typeName : String)
  | variable (name : String)
  | unknown
  deriving DecidableEq, Repr

structure Call where
  name : String
  receiver : Receiver
  arguments : List Argument
  line : Nat
  deriving DecidableEq, Repr

structure Branch where
  kind : String
  condition : String
  deriving DecidableEq, Repr

/-- What the statements of a body hold, each list in the order of the text. -/
structure Contents where
  calls : List Call
  locals : List Local
  branches : List Branch
  deriving DecidableEq, Repr

namespace Contents

def empty : Contents := ⟨[], [], []⟩

def append (a b : Contents) : Contents :=
  ⟨a.calls ++ b.calls, a.locals ++ b.locals, a.branches ++ b.branches⟩

instance : Append Contents := ⟨append⟩

end Contents

/-- A method, a constructor, or the initializer that gathers all code outside of them. -/
structure Method where
  name : String
  visibility : Visibility
  isStatic : Bool
  parameters : List Parameter
  contents : Contents
  deriving DecidableEq, Repr

namespace Method

def initializer (contents : Contents) : Method :=
  ⟨"<init>", .privateAccess, false, [], contents⟩

def calls (m : Method) : List Call := m.contents.calls

def locals (m : Method) : List Local := m.contents.locals

def branches (m : Method) : List Branch := m.contents.branches

/-- A call with this many arguments fits. -/
def accepts (m : Method) (count : Nat) : Bool :=
  match m.parameters.getLast? with
  | some last =>
    if last.varargs then decide (m.parameters.length ≤ count + 1)
    else count == m.parameters.length
  | none => count == m.parameters.length

/-- The written type of a variable of the body: the last local of that name, else the first
parameter. -/
def variableType? (m : Method) (name : String) : Option String :=
  match m.locals.reverse.find? (·.name == name) with
  | some l => some l.typeName
  | none => (m.parameters.find? (·.name == name)).map Parameter.typeName

end Method

structure TypeDeclaration where
  name : String
  /-- The names of the enclosing types and its own. -/
  path : List String
  kind : TypeKind
  superclass : Option String
  interfaces : List String
  fields : List Field
  methods : List Method
  constructors : List Method
  initializer : Method
  deriving DecidableEq, Repr

namespace TypeDeclaration

def field? (d : TypeDeclaration) (name : String) : Option Field :=
  d.fields.find? (·.name == name)

def hasPrivateMethod (d : TypeDeclaration) (name : String) : Bool :=
  d.methods.any fun m => m.name == name && m.visibility == .privateAccess

def bodies (d : TypeDeclaration) : List Method :=
  d.methods ++ d.constructors ++ [d.initializer]

end TypeDeclaration

structure CompilationUnit where
  package : Option String
  imports : List Import
  types : List TypeDeclaration
  deriving DecidableEq, Repr

namespace CompilationUnit

def typeByPath? (u : CompilationUnit) (path : List String) : Option TypeDeclaration :=
  u.types.find? (·.path == path)

/-- The type that a simple name means inside the given types: a member of the innermost enclosing
type that has one, or a top-level type. -/
def visibleType? (u : CompilationUnit) (scope : List String) (name : String) :
    Option TypeDeclaration :=
  (List.range (scope.length + 1)).reverse.findSome? fun depth =>
    u.typeByPath? (scope.take depth ++ [name])

end CompilationUnit

end StructureGraph.Java
