import StructureGraph.Java.Signature

namespace StructureGraph.Resolution

open StructureGraph.Java

structure BuiltinMethod where
  name : String
  /-- The qualified types of the parameters. -/
  parameters : List String
  deriving DecidableEq, Repr

structure BuiltinType where
  qualifiedName : String
  superclass : Option String
  methods : List BuiltinMethod
  deriving DecidableEq, Repr

namespace BuiltinType

def signature (t : BuiltinType) (m : BuiltinMethod) : String :=
  t.qualifiedName ++ "." ++ m.name ++ "(" ++ String.intercalate ", " m.parameters ++ ")"

def object : BuiltinType where
  qualifiedName := "java.lang.Object"
  superclass := none
  methods :=
    [⟨"toString", []⟩, ⟨"equals", ["java.lang.Object"]⟩, ⟨"hashCode", []⟩, ⟨"getClass", []⟩]

def string : BuiltinType where
  qualifiedName := "java.lang.String"
  superclass := some "java.lang.Object"
  methods :=
    [⟨"length", []⟩, ⟨"equals", ["java.lang.Object"]⟩, ⟨"isEmpty", []⟩, ⟨"substring", ["int"]⟩,
     ⟨"substring", ["int", "int"]⟩, ⟨"charAt", ["int"]⟩, ⟨"trim", []⟩]

def integer : BuiltinType where
  qualifiedName := "java.lang.Integer"
  superclass := some "java.lang.Number"
  methods := [⟨"parseInt", ["java.lang.String"]⟩, ⟨"valueOf", ["int"]⟩]

def number : BuiltinType := ⟨"java.lang.Number", some "java.lang.Object", []⟩

def math : BuiltinType where
  qualifiedName := "java.lang.Math"
  superclass := some "java.lang.Object"
  methods := [⟨"max", ["int", "int"]⟩, ⟨"min", ["int", "int"]⟩, ⟨"abs", ["int"]⟩]

def stringBuilder : BuiltinType where
  qualifiedName := "java.lang.StringBuilder"
  superclass := some "java.lang.Object"
  methods := [⟨"append", ["java.lang.String"]⟩, ⟨"toString", []⟩]

def all : List BuiltinType := [object, string, integer, number, math, stringBuilder]

def ofName? (name : String) : Option BuiltinType :=
  all.find? (·.qualifiedName == name)

end BuiltinType

/-- A type to look for methods in. -/
inductive FoundType where
  | declared (unit : CompilationUnit) (declaration : TypeDeclaration)
  | builtin (type : BuiltinType)
  deriving DecidableEq, Repr

/-- A method that a call may mean, with the types of its parameters as they are written. -/
structure Candidate where
  signature : String
  parameters : List String
  deriving DecidableEq, Repr

namespace FoundType

def qualifiedName : FoundType → String
  | declared u d => u.typePath d
  | builtin t => t.qualifiedName

/-- The methods of a name that take a number of arguments. -/
def candidates : FoundType → String → Nat → List Candidate
  | declared u d, name, count =>
    (d.methods.filter fun m => m.name == name && m.accepts count).map fun m =>
      ⟨u.methodSignature d m, m.parameters.map Parameter.typeName⟩
  | builtin t, name, count =>
    (t.methods.filter fun m => m.name == name && m.parameters.length == count).map fun m =>
      ⟨t.signature m, m.parameters⟩

end FoundType

/-- What a type says to a call. -/
inductive Verdict where
  | signature (text : String)
  | ambiguous
  | missing
  deriving DecidableEq, Repr

namespace Candidate

/-- The type of the parameter that takes an argument; the last one takes all that follow. -/
def parameterAt? (c : Candidate) (i : Nat) : Option String :=
  (c.parameters[i]?).or c.parameters.getLast?

def agreesAt (c : Candidate) (argument : Option String × Nat) : Bool :=
  match argument.1, c.parameterAt? argument.2 with
  | some type, some parameter => TypeText.simple parameter == type
  | _, _ => false

/-- How many of the arguments are known to be of the type of their parameter. -/
def score (c : Candidate) (arguments : List (Option String)) : Nat :=
  arguments.zipIdx.countP c.agreesAt

end Candidate

namespace Verdict

/-- The highest of the scores. -/
def bestScore (cs : List Candidate) (arguments : List (Option String)) : Nat :=
  (cs.map (·.score arguments)).foldl max 0

/-- A single candidate is meant, whatever the arguments. Among several the one with the highest
score is, unless there are two of them. -/
def choose (cs : List Candidate) (arguments : List (Option String)) : Verdict :=
  match cs with
  | [] => missing
  | [c] => signature c.signature
  | cs =>
    match cs.filter fun c => c.score arguments == bestScore cs arguments with
    | [c] => signature c.signature
    | _ => ambiguous

end Verdict

namespace FoundType

/-- The verdict of a type's own methods on a call with these argument types. -/
def verdict (t : FoundType) (name : String) (arguments : List (Option String)) : Verdict :=
  Verdict.choose (t.candidates name arguments.length) arguments

end FoundType

end StructureGraph.Resolution
