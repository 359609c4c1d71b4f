
namespace StructureGraph.Java.Syntax

inductive Kind where
  | program
  -- declarations
  | packageDeclaration | importDeclaration | moduleDeclaration | moduleBody | moduleDirective
  | classDeclaration | interfaceDeclaration | enumDeclaration | recordDeclaration
  | annotationTypeDeclaration | annotationTypeBody | annotationElement
  | superclass | superInterfaces | extendsInterfaces | permits | typeList
  | classBody | interfaceBody | enumBody | enumBodyDeclarations | enumConstant
  | fieldDeclaration | constantDeclaration | variableDeclarator
  | methodDeclaration | constructorDeclaration | compactConstructorDeclaration
  | constructorBody | explicitConstructorInvocation | staticInitializer
  | formalParameters | formalParameter | spreadParameter | receiverParameter | inferredParameters
  | throwsClause | modifiers | annotationUse | annotationArguments | elementPair | elementArray
  | typeParameters | typeParameter | typeBound
  -- types
  | typeIdentifier | scopedTypeIdentifier | genericType | typeArguments | wildcard | arrayType
  | dimensions | annotatedType | primitiveType | voidType
  -- names
  | identifier | scopedIdentifier | asterisk
  -- statements
  | block | localVariableDeclaration | expressionStatement | labeledStatement | emptyStatement
  | ifStatement | whileStatement | doStatement | forStatement | enhancedForStatement
  | assertStatement | breakStatement | continueStatement | returnStatement | yieldStatement
  | throwStatement | synchronizedStatement
  | tryStatement | tryWithResourcesStatement | resources | resource
  | catchClause | catchParameter | catchType | finallyClause
  | switchExpression | switchBlock | switchGroup | switchRule | switchLabel | guard
  | typePattern | recordPattern
  -- expressions
  | assignmentExpression | binaryExpression | instanceofExpression | lambdaExpression
  | ternaryExpression | updateExpression | unaryExpression | castExpression
  | parenthesizedExpression | objectCreationExpression | arrayCreationExpression | dimensionExpression
  | arrayInitializer | fieldAccess | arrayAccess | methodInvocation | methodReference
  | classLiteral | templateExpression | argumentList | this | super
  -- literals
  | decimalInteger | hexInteger | octalInteger | binaryInteger
  | decimalFloat | hexFloat | characterLiteral | stringLiteral | textBlock
  | stringHead | stringMiddle | stringTail
  | trueLiteral | falseLiteral | nullLiteral
  -- the rest
  | lineComment | blockComment
  /-- Keywords and punctuation, which are known by their text alone. -/
  | token
  deriving DecidableEq, Repr, Inhabited

namespace Kind

def isComment : Kind → Bool
  | lineComment | blockComment => true
  | _ => false

def isTypeDeclaration : Kind → Bool
  | classDeclaration | interfaceDeclaration | enumDeclaration | recordDeclaration => true
  | _ => false

end Kind

/-- What a child is to its parent, where that matters. -/
inductive Role where
  | name | type | body | superclass | interfaces | parameters | declarator | value | dimensions
  | condition | object | field | arguments
  deriving DecidableEq, Repr

inductive Tree where
  | leaf (kind : Kind) (gap text : String) (line : Nat)
  | branch (kind : Kind) (children : List (Option Role × Tree))
  deriving Inhabited

namespace Tree

def kind : Tree → Kind
  | leaf k _ _ _ => k
  | branch k _ => k

def children : Tree → List (Option Role × Tree)
  | leaf .. => []
  | branch _ cs => cs

mutual

/-- The text with the blanks before its first leaf. -/
def fullText : Tree → String
  | leaf _ gap text _ => gap ++ text
  | branch _ cs => fullTexts cs

def fullTexts : List (Option Role × Tree) → String
  | [] => ""
  | (_, t) :: ts => fullText t ++ fullTexts ts

end

/-- The text from the first leaf to the last, with all blanks between them. -/
def text : Tree → String
  | leaf _ _ text _ => text
  | branch _ [] => ""
  | branch _ ((_, t) :: ts) => text t ++ fullTexts ts

/-- The line of the first leaf, counted from 1. -/
def line : Tree → Nat
  | leaf _ _ _ line => line
  | branch _ [] => 1
  | branch _ ((_, t) :: _) => line t

def isNamed (t : Tree) : Bool :=
  t.kind != .token

def isComment (t : Tree) : Bool :=
  t.kind.isComment

def named (t : Tree) : List Tree :=
  (t.children.map Prod.snd).filter isNamed

def firstOf (k : Kind) (t : Tree) : Option Tree :=
  (t.children.map Prod.snd).find? (·.kind == k)

def allAs (r : Role) (t : Tree) : List Tree :=
  (t.children.filter (·.1 == some r)).map Prod.snd

def childAs (r : Role) (t : Tree) : Option Tree :=
  (t.allAs r).head?

end Tree

end StructureGraph.Java.Syntax
