import StructureGraph.Text.Letter
import StructureGraph.Java.Declaration
import StructureGraph.Java.Syntax.Tree
import StructureGraph.Java.TypeText

namespace StructureGraph.Java.Extraction

open Syntax (Tree Kind Role)
open StructureGraph.Text (collapse trim isAlphanumeric)

def writtenType? (t : Tree) : Option String :=
  (t.childAs .type).map fun ty => TypeText.erase ty.text

mutual

/-- The type of an object that is created or cast on the spot, also inside parentheses. -/
def typedReceiver? : Tree → Option Receiver
  | .leaf .. => none
  | .branch k cs =>
    match k with
    | .objectCreationExpression => (writtenType? (.branch k cs)).map .created
    | .castExpression => (writtenType? (.branch k cs)).map .cast
    | .parenthesizedExpression => typedReceiverAmong? cs
    | _ => none

/-- The same for the first operand of a list of children. -/
def typedReceiverAmong? : List (Option Role × Tree) → Option Receiver
  | [] => none
  | (_, t) :: ts =>
    if t.isNamed && !t.isComment then typedReceiver? t else typedReceiverAmong? ts

end

def isDottedName (s : String) : Bool :=
  s.toList.all fun c => isAlphanumeric c || c == '_' || c == '$' || c == '.'

def selectedReceiver (t : Tree) : Receiver :=
  let written := collapse t.text
  let dotted := if isDottedName written then .name written else .expression written
  match t.childAs .object, t.childAs .field with
  | some object, some field => if object.kind = .this then .thisField field.text else dotted
  | _, _ => dotted

def receiver (object : Option Tree) : Receiver :=
  match object with
  | none => .implicit
  | some t =>
    match t.kind with
    | .this => .this
    | .super => .super
    | .identifier => .name t.text
    | .fieldAccess => selectedReceiver t
    | _ => (typedReceiver? t).getD (.expression (collapse t.text))

def endsWithAny (s : String) (cs : List Char) : Bool :=
  s.toList.getLast?.any cs.contains

def argument (t : Tree) : Argument :=
  match t.kind with
  | .stringLiteral | .textBlock => .known "String"
  | .characterLiteral => .known "char"
  | .trueLiteral | .falseLiteral => .known "boolean"
  | .decimalInteger | .hexInteger | .octalInteger | .binaryInteger =>
    .known (if endsWithAny t.text ['l', 'L'] then "long" else "int")
  | .decimalFloat | .hexFloat =>
    .known (if endsWithAny t.text ['f', 'F'] then "float" else "double")
  | .objectCreationExpression | .castExpression =>
    match writtenType? t with
    | some ty => .known ty
    | none => .unknown
  | .identifier => .variable t.text
  | _ => .unknown

def call? (t : Tree) : Option Call :=
  (t.childAs .name).map fun name =>
    { name := name.text
      receiver := receiver (t.childAs .object)
      arguments :=
        match t.childAs .arguments with
        | some list => (list.named.filter (!·.isComment)).map argument
        | none => []
      line := t.line }

/-- A condition without the parentheses around it. -/
def stripParentheses (condition : String) : String :=
  match condition.toList with
  | '(' :: cs =>
    match cs.getLast? with
    | some ')' => trim (String.ofList cs.dropLast)
    | _ => condition
  | _ => condition

def declaredLocals (t : Tree) : List Local :=
  match writtenType? t with
  | none => []
  | some typeName =>
    (t.allAs .declarator).filterMap fun d =>
      (d.childAs .name).map fun name => ⟨name.text, typeName⟩

def loop? (t : Tree) : Option (Branch × Local) :=
  match t.childAs .type, t.childAs .name, t.childAs .value with
  | some ty, some name, some value =>
    some
      (⟨"for", collapse (ty.text ++ " " ++ name.text ++ " : " ++ value.text)⟩,
       ⟨name.text, TypeText.erase ty.text⟩)
  | _, _, _ => none

/-- What a node holds by itself, its children left aside. -/
def ownContents (t : Tree) : Contents :=
  match t.kind with
  | .methodInvocation => ⟨(call? t).toList, [], []⟩
  | .localVariableDeclaration => ⟨[], declaredLocals t, []⟩
  | .ifStatement =>
    ⟨[], [],
      ((t.childAs .condition).map fun c =>
        Branch.mk "if" (stripParentheses (collapse c.text))).toList⟩
  | .forStatement =>
    ⟨[], [],
      [Branch.mk "for" (((t.childAs .condition).map fun c => collapse c.text).getD "")]⟩
  | .enhancedForStatement =>
    ⟨[], ((loop? t).map Prod.snd).toList, ((loop? t).map Prod.fst).toList⟩
  | _ => .empty

mutual

/-- The contents of a tree in the order of the text, the outer call before the inner ones. -/
def contents : Tree → Contents
  | .leaf .. => .empty
  | .branch k cs =>
    if k.isTypeDeclaration then .empty else ownContents (.branch k cs) ++ contentsOfAll cs

def contentsOfAll : List (Option Role × Tree) → Contents
  | [] => .empty
  | (_, t) :: ts => contents t ++ contentsOfAll ts

end

structure Modifiers where
  visibility : Option Visibility
  isStatic : Bool

def accessOf : String → Option Visibility
  | "public" => some .publicAccess
  | "protected" => some .protectedAccess
  | "private" => some .privateAccess
  | _ => none

/-- The first access word counts. -/
def modifiers (t : Tree) : Modifiers :=
  match t.firstOf .modifiers with
  | none => ⟨none, false⟩
  | some ms =>
    let written := ((ms.children.map Prod.snd).filter (·.kind == .token)).map Tree.text
    ⟨written.findSome? accessOf, written.contains "static"⟩

def formalParameter? (t : Tree) : Option Parameter :=
  match t.childAs .type, t.childAs .name with
  | some ty, some name =>
    let brackets := ((t.childAs .dimensions).map fun d => TypeText.erase d.text).getD ""
    some ⟨name.text, TypeText.erase ty.text ++ brackets, false⟩
  | _, _ => none

def spreadParameter? (t : Tree) : Option Parameter :=
  let type := t.named.find? fun c => c.kind != .modifiers && c.kind != .variableDeclarator
  let name := (t.named.find? (·.kind == .variableDeclarator)).bind (·.childAs .name)
  match type, name with
  | some ty, some name => some ⟨name.text, TypeText.erase ty.text, true⟩
  | _, _ => none

def parameter? (t : Tree) : Option Parameter :=
  match t.kind with
  | .formalParameter => formalParameter? t
  | .spreadParameter => spreadParameter? t
  | _ => none

def parameters (t : Tree) : List Parameter :=
  match t.childAs .parameters with
  | some list => list.named.filterMap parameter?
  | none => []

def method? (access : Visibility) (t : Tree) : Option Method :=
  (t.childAs .name).map fun name =>
    { name := name.text
      visibility := (modifiers t).visibility.getD access
      isStatic := (modifiers t).isStatic
      parameters := parameters t
      contents := ((t.childAs .body).map contents).getD .empty }

def fields (access : Visibility) (t : Tree) : List Field :=
  match t.childAs .type with
  | none => []
  | some ty =>
    (t.allAs .declarator).filterMap fun d =>
      (d.childAs .name).map fun name =>
        { name := name.text
          typeName := collapse ty.text
          visibility := (modifiers t).visibility.getD access
          isStatic := (modifiers t).isStatic }

/-- The components of a record are private fields. -/
def components (t : Tree) : List Field :=
  match t.childAs .parameters with
  | none => []
  | some list =>
    list.named.filterMap fun c =>
      match c.childAs .type, c.childAs .name with
      | some ty, some name => some ⟨name.text, collapse ty.text, .privateAccess, false⟩
      | _, _ => none

mutual

/-- The members of a type body; those behind the constants of an enum count like the others. -/
def members : Tree → List Tree
  | .leaf .. => []
  | .branch _ cs => membersAmong cs

def membersAmong : List (Option Role × Tree) → List Tree
  | [] => []
  | (_, t) :: ts =>
    (if t.kind = .enumBodyDeclarations then members t else [t]) ++ membersAmong ts

end

def isField : Kind → Bool
  | .fieldDeclaration | .constantDeclaration => true
  | _ => false

def isConstructor : Kind → Bool
  | .constructorDeclaration | .compactConstructorDeclaration => true
  | _ => false

/-- What a member adds to the initializer: field values, initializer blocks and enum constants. -/
def initializing (t : Tree) : Contents :=
  match t.kind with
  | .fieldDeclaration | .constantDeclaration =>
    ((t.allAs .declarator).filterMap (·.childAs .value)).foldl (fun a v => a ++ contents v) .empty
  | .staticInitializer | .block | .enumConstant => contents t
  | _ => .empty

def typeKind : Kind → TypeKind
  | .interfaceDeclaration => .interfaceType
  | .enumDeclaration => .enumType
  | .recordDeclaration => .recordType
  | _ => .classType

def listedTypes (t : Tree) : List String :=
  match t.firstOf .typeList with
  | some list => list.named.map fun ty => TypeText.erase ty.text
  | none => []

def interfaces (t : Tree) : List String :=
  let clause :=
    if t.kind = .interfaceDeclaration then t.firstOf .extendsInterfaces
    else t.childAs .interfaces
  (clause.map listedTypes).getD []

/-- The first thing behind `extends`, be it a type or a comment. -/
def superclass? (t : Tree) : Option String :=
  (t.childAs .superclass).bind fun clause =>
    clause.named.head?.map fun ty => TypeText.erase ty.text

/-- A type by itself, without the types declared in it. -/
def typeDeclaration (outer : List String) (name : String) (t : Tree) : TypeDeclaration :=
  let kind := typeKind t.kind
  let access := if kind = .interfaceType then .publicAccess else .packageAccess
  let ms := ((t.childAs .body).map members).getD []
  { name := name
    path := outer ++ [name]
    kind := kind
    superclass := superclass? t
    interfaces := interfaces t
    fields :=
      (if kind = .recordType then components t else []) ++
        (ms.filter (isField ·.kind)).flatMap (fields access)
    methods := (ms.filter (·.kind == .methodDeclaration)).filterMap (method? access)
    constructors := (ms.filter (isConstructor ·.kind)).filterMap (method? access)
    initializer := .initializer (ms.foldl (fun a m => a ++ initializing m) .empty) }

mutual

/-- A declared type, then the types declared in its body. -/
def types (outer : List String) : Tree → List TypeDeclaration
  | .leaf .. => []
  | .branch k cs =>
    match (Tree.branch k cs).childAs .name with
    | none => []
    | some name =>
      typeDeclaration outer name.text (.branch k cs) :: typesOfBody (outer ++ [name.text]) cs

/-- The types declared in the body among these children. -/
def typesOfBody (outer : List String) : List (Option Role × Tree) → List TypeDeclaration
  | [] => []
  | (r, t) :: ts => if r = some .body then memberTypes outer t else typesOfBody outer ts

def memberTypes (outer : List String) : Tree → List TypeDeclaration
  | .leaf .. => []
  | .branch _ cs => memberTypesAmong outer cs

def memberTypesAmong (outer : List String) : List (Option Role × Tree) → List TypeDeclaration
  | [] => []
  | (_, t) :: ts =>
    (if t.kind.isTypeDeclaration then types outer t
      else if t.kind = .enumBodyDeclarations then memberTypes outer t
      else []) ++
      memberTypesAmong outer ts

end

def qualifiedName? (t : Tree) : Option String :=
  (t.named.find? fun c => c.kind == .scopedIdentifier || c.kind == .identifier).map Tree.text

def import? (t : Tree) : Option Import :=
  (qualifiedName? t).map fun path =>
    { path := path
      isStatic := (t.children.map Prod.snd).any fun c => c.kind == .token && c.text == "static"
      isWildcard := (t.firstOf .asterisk).isSome }

/-- The declarations of a file. Of several package declarations the last counts. -/
def compilationUnit (t : Tree) : CompilationUnit :=
  { package := ((t.named.filter (·.kind == .packageDeclaration)).getLast?).bind qualifiedName?
    imports := (t.named.filter (·.kind == .importDeclaration)).filterMap import?
    types := (t.named.filter (·.kind.isTypeDeclaration)).flatMap (types []) }

end StructureGraph.Java.Extraction
