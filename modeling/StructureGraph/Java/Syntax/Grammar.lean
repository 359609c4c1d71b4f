import StructureGraph.Java.Syntax.Pattern

namespace StructureGraph.Java.Syntax

def modifierWords : List String :=
  ["public", "protected", "private", "abstract", "static", "final", "strictfp", "default",
   "synchronized", "native", "transient", "volatile", "sealed"]

/-- The modifiers that are not names elsewhere. -/
def strictModifierWords : List String := modifierWords.filter (· != "sealed")

def integralWords : List String := ["byte", "short", "int", "long", "char"]

def primitiveWords : List String := integralWords ++ ["float", "double", "boolean"]

/-- Words that begin an expression, and the operator spelled as a word. -/
def expressionWords : List String :=
  primitiveWords ++
    ["void", "new", "this", "super", "true", "false", "null", "switch", "instanceof"]

/-- Words that are keywords in a few places and names in all others. -/
def contextualWords : List String := ["open", "module", "record", "with", "sealed", "yield"]

/-- Words that begin a statement and no expression. -/
def statementWords : List String :=
  strictModifierWords ++
    ["assert", "break", "case", "class", "continue", "do", "enum", "for", "if", "import",
     "interface", "package", "return", "throw", "try", "while"]

/-- Where a type stands, which decides the words it cannot begin with. -/
inductive Site where
  | statement
  | member
  | expression
  | parameter
  | plain
  deriving DecidableEq

def Site.barred : Site → List String
  | .statement => statementWords ++ expressionWords ++ contextualWords
  | .member =>
    modifierWords ++ primitiveWords ++ ["void", "class", "interface", "enum", "record"]
  | .expression => expressionWords ++ contextualWords
  | .parameter => primitiveWords ++ ["void"] ++ modifierWords
  | .plain => primitiveWords ++ ["void", "final"]

/-- Words that mean something of their own behind a point. -/
def selectorWords : List String := ["this", "super", "class", "new"]

/-- Words that mean something of their own behind a type that may be an expression. -/
def bindingWords : List String := ["instanceof"]

/-- The same in a switch label. -/
def patternWords : List String := "when" :: bindingWords

inductive Rule where
  | qualifiedName
  -- declarations
  | moduleDirective | packageDeclaration | importDeclaration | moduleDeclaration
  | classDeclaration | interfaceDeclaration | enumDeclaration | recordDeclaration
  | annotationTypeDeclaration
  | declaration
  | typeParameters | superInterfaces | typeList | permits
  | classBody | interfaceBody | annotationTypeBody | enumBody | enumConstant | member
  | fieldDeclaration | constantDeclaration
  | methodDeclaration | constructorDeclaration | compactConstructorDeclaration
  | constructorBody | explicitConstructorInvocation
  | formalParameters | formalParameter | throwsClause
  | declarators | variableDeclarator | arrayInitializer
  | modifiers | annotationUse | elementValue
  -- types
  | type (site : Site) | unannotatedType (site : Site) | simpleType (site : Site)
  | typeArguments | dimensions
  -- statements
  | block | statement | localVariableDeclaration | expressionStatement
  | parenthesized | tryTail | catchClause | finallyClause | resource
  | switchExpression | switchLabel | recordPattern
  -- expressions
  /-- `arrow` says whether a lambda may stand here; in a switch label its arrow would be the
  label's. -/
  | expression (arrow : Bool)
  | binary (level : Nat) (arrow : Bool)
  | operand (arrow : Bool)
  | assignable (arrow : Bool)
  | lambda | cast (arrow : Bool) | primary | creation | arrayCreation | stringLiteral
  | argumentList

namespace Grammar

abbrev P := Pattern Rule

def optional (p : P) : P := p <|> .empty

def many1 (p : P) : P := p ++ .many p

def word (s : String) : P := .take (.word .token s)

def mark (s : String) : P := .take (.mark .token s)

def operator (s : String) : P := .take (.operator s)

def anyOf : List P → P
  | [] => .unless .empty .empty
  | [p] => p
  | p :: ps => p <|> anyOf ps

def words (k : Kind) (ss : List String) : P := anyOf (ss.map fun s => .take (.word k s))

def operators (ss : List String) : P := anyOf (ss.map operator)

/-- One or more, with a mark between each two. -/
def separated1 (separator : String) (p : P) : P := p ++ .many (mark separator ++ p)

def list1 (p : P) : P := separated1 "," p

def list (p : P) : P := optional (list1 p)

def opening : P := mark "\x7b"

def closing : P := mark "\x7d"

def braced (p : P) : P := opening ++ p ++ closing

def parens (p : P) : P := mark "(" ++ p ++ mark ")"

def identifier (barred : List String) : P := .take (.name .identifier barred)

def named (barred : List String) : P := .role .name (identifier barred)

def typeName (barred : List String) : P := .take (.name .typeIdentifier barred)

def literals (ks : List Kind) : P := anyOf (ks.map fun k => .take (.literal k))

def this : P := .take (.word .this "this")

def super : P := .take (.word .super "super")

def modifiers : P := optional (.rule .modifiers)

def expression : P := .rule (.expression true)

def block : P := .rule .block

def parameters : P := .role .parameters (.rule .formalParameters)

def arguments : P := .role .arguments (.rule .argumentList)

def typed (s : Site) : P := .role .type (.rule (.unannotatedType s))

/-- A name that a declaration introduces, perhaps with array brackets behind it. -/
def declaredExcept (barred : List String) : P :=
  named barred ++ optional (.role .dimensions (.rule .dimensions))

def declaredName : P := declaredExcept bindingWords

def body (p : P) : P := .role .body p

def interfaces : P := .role .interfaces (.rule .superInterfaces)

def typeParameters : P := optional (.rule .typeParameters)

def typeArguments : P := optional (.rule .typeArguments)

def annotations : P := .many (.rule .annotationUse)

def catches : P := .many (.rule .catchClause)

/-- What may follow an object behind a point. -/
def selections (object : P) : P :=
  anyOf
    [.node .methodInvocation
      (.role .object object ++ mark "." ++ optional (super ++ mark ".") ++ typeArguments ++
        named selectorWords ++ arguments),
     .node .fieldAccess
      (.role .object object ++ optional (mark "." ++ super) ++ mark "." ++
        .role .field (this <|> identifier selectorWords)),
     .node .methodReference
      (object ++ mark "::" ++ typeArguments ++ (word "new" <|> identifier []))]

def isVariable : Kind → Bool
  | .identifier | .fieldAccess => true
  | _ => false

def isAssignable (k : Kind) : Bool := isVariable k || k == .arrayAccess

def isQualifiedType : Kind → Bool
  | .typeIdentifier | .scopedTypeIdentifier | .genericType => true
  | _ => false

def isRawType : Kind → Bool
  | .typeIdentifier | .scopedTypeIdentifier => true
  | _ => false

def isRecordType : Kind → Bool
  | .typeIdentifier | .genericType => true
  | _ => false

def anything (_ : Kind) : Bool := true

def held : P := .held anything

/-- Binary operators from the loosest to the tightest. -/
def levels : List (List String) :=
  [["||"], ["&&"], ["|"], ["^"], ["&"], ["==", "!="], ["<", ">", "<=", ">="],
   ["<<", ">>", ">>>"], ["+", "-"], ["*", "/", "%"]]

/-- The level of `<`, which `instanceof` shares. -/
def relationalLevel : Nat := 6

def assignmentOperators : List String :=
  ["=", "+=", "-=", "*=", "/=", "&=", "|=", "^=", "%=", "<<=", ">>=", ">>>="]

def elementArray : P :=
  .node .elementArray (braced (list (.rule .elementValue) ++ optional (mark ",")))

/-- Annotations before and behind explicit type arguments, as `new` takes them. -/
def creationPrefix : P := word "new" ++ annotations ++ typeArguments ++ annotations

def creationRest : P :=
  creationPrefix ++ .role .type (.rule (.simpleType .plain)) ++ arguments ++
    optional (.rule .classBody)

/-- A parenthesized name before a sign is an operand of the sign and no type. -/
def signedName : P :=
  parens (identifier expressionWords) ++ (operator "+" <|> operator "-")

def statements : List P :=
  [block,
   .node .emptyStatement (mark ";"),
   .node .ifStatement
    (word "if" ++ .role .condition (.rule .parenthesized) ++ .rule .statement ++
      optional (word "else" ++ .rule .statement)),
   .node .enhancedForStatement
    (word "for" ++ mark "(" ++ modifiers ++ typed .plain ++ declaredName ++ mark ":" ++
      .role .value expression ++ mark ")" ++ .rule .statement),
   .node .forStatement
    (word "for" ++ mark "(" ++
      (.rule .localVariableDeclaration <|> (list expression ++ mark ";")) ++
      optional (.role .condition expression) ++ mark ";" ++ list expression ++ mark ")" ++
      .rule .statement),
   .node .whileStatement (word "while" ++ .rule .parenthesized ++ .rule .statement),
   .node .doStatement
    (word "do" ++ .rule .statement ++ word "while" ++ .rule .parenthesized ++ mark ";"),
   .node .returnStatement (word "return" ++ optional expression ++ mark ";"),
   .node .throwStatement (word "throw" ++ expression ++ mark ";"),
   .node .breakStatement (word "break" ++ optional (identifier []) ++ mark ";"),
   .node .continueStatement (word "continue" ++ optional (identifier []) ++ mark ";"),
   .node .assertStatement
    (word "assert" ++ expression ++ optional (mark ":" ++ expression) ++ mark ";"),
   .node .synchronizedStatement (word "synchronized" ++ .rule .parenthesized ++ block),
   .node .tryStatement (word "try" ++ body block ++ .rule .tryTail),
   .node .tryWithResourcesStatement
    (word "try" ++
      .node .resources
        (parens (separated1 ";" (.rule .resource) ++ optional (mark ";"))) ++
      body block ++ catches ++ optional (.rule .finallyClause)),
   .rule .switchExpression,
   .rule .declaration,
   .node .yieldStatement (word "yield" ++ expression ++ mark ";"),
   .node .labeledStatement
    (identifier (Site.barred .statement) ++ mark ":" ++ .rule .statement),
   .rule .localVariableDeclaration,
   .unless (words .token statementWords) (.rule .expressionStatement)]

def primaries : List P :=
  [literals
    [.decimalInteger, .hexInteger, .octalInteger, .binaryInteger, .decimalFloat, .hexFloat,
     .characterLiteral],
   .rule .stringLiteral,
   .take (.word .trueLiteral "true"),
   .take (.word .falseLiteral "false"),
   .take (.word .nullLiteral "null"),
   .rule .creation,
   .rule .arrayCreation,
   .rule .parenthesized,
   .node .classLiteral (.rule (.unannotatedType .expression) ++ mark "." ++ word "class"),
   .node .methodReference
    (.rule (.type .expression) ++ mark "::" ++ typeArguments ++
      (word "new" <|> identifier [])),
   selections super,
   this,
   .node .methodInvocation (named expressionWords ++ arguments),
   identifier expressionWords]

def directives : List P :=
  [word "requires" ++ .many (words .token ["transitive", "static"]) ++ .rule .qualifiedName,
   words .token ["exports", "opens"] ++ .rule .qualifiedName ++
    optional (word "to" ++ list1 (.rule .qualifiedName)),
   word "uses" ++ .rule .qualifiedName,
   word "provides" ++ .rule .qualifiedName ++ word "with" ++ list1 (.rule .qualifiedName)]

def declarations : List Rule :=
  [.classDeclaration, .interfaceDeclaration, .enumDeclaration, .recordDeclaration,
   .annotationTypeDeclaration]

def rules : Rule → P
  | .qualifiedName =>
    .grow (identifier [])
      (.node .scopedIdentifier (held ++ mark "." ++ identifier []))
  -- declarations
  | .moduleDirective => .node .moduleDirective (anyOf directives ++ mark ";")
  | .packageDeclaration =>
    .node .packageDeclaration
      (annotations ++ word "package" ++ .rule .qualifiedName ++ mark ";")
  | .importDeclaration =>
    .node .importDeclaration
      (word "import" ++ optional (word "static") ++ .rule .qualifiedName ++
        optional (mark "." ++ .take (.mark .asterisk "*")) ++ mark ";")
  | .moduleDeclaration =>
    .node .moduleDeclaration
      (annotations ++ optional (word "open") ++ word "module" ++ .rule .qualifiedName ++
        .node .moduleBody (braced (.many (.rule .moduleDirective))))
  | .classDeclaration =>
    .node .classDeclaration
      (modifiers ++ word "class" ++ named [] ++ typeParameters ++
        optional (.role .superclass
          (.node .superclass (word "extends" ++ .rule (.type .plain)))) ++
        optional interfaces ++ optional (.rule .permits) ++ body (.rule .classBody))
  | .interfaceDeclaration =>
    .node .interfaceDeclaration
      (modifiers ++ word "interface" ++ named [] ++ typeParameters ++
        optional (.node .extendsInterfaces (word "extends" ++ .rule .typeList)) ++
        optional (.rule .permits) ++ body (.rule .interfaceBody))
  | .enumDeclaration =>
    .node .enumDeclaration
      (modifiers ++ word "enum" ++ named [] ++ optional interfaces ++ body (.rule .enumBody))
  | .recordDeclaration =>
    .node .recordDeclaration
      (modifiers ++ word "record" ++ named [] ++ typeParameters ++ parameters ++
        optional interfaces ++ body (.rule .classBody))
  | .annotationTypeDeclaration =>
    .node .annotationTypeDeclaration
      (modifiers ++ mark "@interface" ++ named [] ++ body (.rule .annotationTypeBody))
  | .declaration =>
    anyOf
      (declarations.map .rule ++
        [.rule .packageDeclaration, .rule .importDeclaration, .rule .moduleDeclaration])
  | .typeParameters =>
    .node .typeParameters
      (mark "<" ++
        list1 (.node .typeParameter
          (annotations ++ typeName [] ++
            optional (.node .typeBound
              (word "extends" ++ separated1 "&" (.rule (.type .plain)))))) ++
        mark ">")
  | .superInterfaces => .node .superInterfaces (word "implements" ++ .rule .typeList)
  | .typeList => .node .typeList (list1 (.rule (.type .plain)))
  | .permits => .node .permits (word "permits" ++ .rule .typeList)
  | .classBody => .node .classBody (braced (.many (.rule .member)))
  | .interfaceBody =>
    .node .interfaceBody
      (braced (.many (anyOf
        ([.rule .methodDeclaration, .rule .constantDeclaration] ++ declarations.map .rule ++
          [mark ";"]))))
  | .annotationTypeBody =>
    .node .annotationTypeBody
      (braced (.many (anyOf
        ([.node .annotationElement
            (modifiers ++ typed .member ++ named [] ++ mark "(" ++ mark ")" ++
              optional (.rule .dimensions) ++
              optional (word "default" ++ .role .value (.rule .elementValue)) ++ mark ";"),
          .rule .constantDeclaration] ++
          (declarations.filter fun | .recordDeclaration => false | _ => true).map .rule ++
          [mark ";"]))))
  | .enumBody =>
    .node .enumBody
      (braced (list (.rule .enumConstant) ++ optional (mark ",") ++
        optional (.node .enumBodyDeclarations (mark ";" ++ .many (.rule .member)))))
  | .enumConstant =>
    .node .enumConstant
      (modifiers ++ named [] ++ optional arguments ++ optional (body (.rule .classBody)))
  | .member =>
    anyOf
      ([.rule .methodDeclaration, .rule .fieldDeclaration, .rule .constructorDeclaration,
        .rule .compactConstructorDeclaration] ++
        declarations.map .rule ++
        [block, .node .staticInitializer (word "static" ++ block), mark ";"])
  | .fieldDeclaration =>
    .node .fieldDeclaration (modifiers ++ typed .member ++ .rule .declarators ++ mark ";")
  | .constantDeclaration =>
    .node .constantDeclaration (modifiers ++ typed .member ++ .rule .declarators ++ mark ";")
  | .methodDeclaration =>
    .node .methodDeclaration
      (modifiers ++ optional (.rule .typeParameters ++ annotations) ++ typed .member ++
        named [] ++ parameters ++ optional (.rule .dimensions) ++
        optional (.rule .throwsClause) ++ (body block <|> mark ";"))
  | .constructorDeclaration =>
    .node .constructorDeclaration
      (modifiers ++ typeParameters ++
        named (strictModifierWords ++ primitiveWords ++ ["void", "class", "interface", "enum"]) ++
        parameters ++
        optional (.rule .throwsClause) ++ body (.rule .constructorBody))
  | .compactConstructorDeclaration =>
    .node .compactConstructorDeclaration
      (modifiers ++ named (Site.barred .member) ++ body block)
  | .constructorBody =>
    .node .constructorBody
      (braced (optional (.rule .explicitConstructorInvocation) ++ .many (.rule .statement)))
  | .explicitConstructorInvocation =>
    .node .explicitConstructorInvocation
      (((typeArguments ++ (this <|> super) ++ arguments) <|>
          (.role .object (.rule .primary) ++ mark "." ++ typeArguments ++ super ++ arguments)) ++
        mark ";")
  | .formalParameters =>
    let receiver :=
      .node .receiverParameter
        (annotations ++ .rule (.unannotatedType .parameter) ++
          .many (identifier selectorWords ++ mark ".") ++ this)
    let all := list (.rule .formalParameter)
    let behind := receiver ++ optional (mark "," ++ all)
    .node .formalParameters
      (anyOf [parens (.unless (.rule .modifiers) behind), parens all, parens behind])
  | .formalParameter =>
    .node .formalParameter (modifiers ++ typed .parameter ++ declaredExcept []) <|>
    .node .spreadParameter
      (modifiers ++ .rule (.unannotatedType .parameter) ++ mark "..." ++ annotations ++
        .rule .variableDeclarator)
  | .throwsClause => .node .throwsClause (word "throws" ++ list1 (.rule (.type .plain)))
  | .declarators => list1 (.role .declarator (.rule .variableDeclarator))
  | .variableDeclarator =>
    .node .variableDeclarator
      (declaredName ++
        optional (mark "=" ++ .role .value (.rule .arrayInitializer <|> expression)))
  | .arrayInitializer =>
    .node .arrayInitializer
      (braced (list (.rule .arrayInitializer <|> expression) ++ optional (mark ",")))
  | .modifiers =>
    .node .modifiers
      (many1 (anyOf
        [.rule .annotationUse, .take (.joined ["non", "-", "sealed"]),
         words .token modifierWords]))
  | .annotationUse =>
    .node .annotationUse
      (mark "@" ++ .rule .qualifiedName ++
        optional (.node .annotationArguments
          (anyOf
            [parens (list1 (.node .elementPair
              (identifier [] ++ mark "=" ++ .rule .elementValue))),
             parens (.rule .elementValue),
             parens .empty])))
  | .elementValue => anyOf [elementArray, .rule .annotationUse, expression]
  -- types
  | .type s =>
    .node .annotatedType (many1 (.rule .annotationUse) ++ .rule (.unannotatedType s)) <|>
    .rule (.unannotatedType s)
  | .unannotatedType s =>
    .grow (.rule (.simpleType s)) (.node .arrayType (held ++ .rule .dimensions))
  | .simpleType s =>
    anyOf
      [words .primitiveType primitiveWords,
       .take (.word .voidType "void"),
       .grow (typeName s.barred)
        (.node .genericType (.held isRawType ++ .rule .typeArguments) <|>
         .node .scopedTypeIdentifier
          (.held isQualifiedType ++ mark "." ++ annotations ++ typeName selectorWords))]
  | .typeArguments =>
    .node .typeArguments
      (mark "<" ++
        list
          (.node .wildcard
            (annotations ++ mark "?" ++
              optional ((word "extends" <|> super) ++ .rule (.type .plain))) <|>
           .rule (.type .plain)) ++
        mark ">")
  | .dimensions => .node .dimensions (many1 (annotations ++ mark "[" ++ mark "]"))
  -- statements
  | .block => .node .block (braced (.many (.rule .statement)))
  | .statement => anyOf statements
  | .localVariableDeclaration =>
    .node .localVariableDeclaration
      (modifiers ++ typed .statement ++ .rule .declarators ++ mark ";")
  | .expressionStatement => .node .expressionStatement (expression ++ mark ";")
  | .parenthesized => .node .parenthesizedExpression (parens expression)
  | .tryTail =>
    (many1 (.rule .catchClause) ++ optional (.rule .finallyClause)) <|> .rule .finallyClause
  | .catchClause =>
    .node .catchClause
      (word "catch" ++
        parens (.node .catchParameter
          (modifiers ++
            .node .catchType (separated1 "|" (.rule (.unannotatedType .plain))) ++
            declaredName)) ++
        body block)
  | .finallyClause => .node .finallyClause (word "finally" ++ block)
  | .resource =>
    .node .resource
      (anyOf
        [modifiers ++ typed .expression ++ declaredName ++ mark "=" ++ .role .value expression,
         .unless (words .token contextualWords ++ (mark ")" <|> mark ";"))
          (.kept isVariable (.rule .primary))])
  | .switchExpression =>
    let rule :=
      .node .switchRule
        (.rule .switchLabel ++ mark "->" ++
          anyOf
            [block, .node .throwStatement (word "throw" ++ expression ++ mark ";"),
             .rule .expressionStatement])
    let group :=
      .node .switchGroup
        (many1 (.rule .switchLabel ++ mark ":") ++ .many (.rule .statement))
    .node .switchExpression
      (word "switch" ++ .role .condition (.rule .parenthesized) ++
        body (.node .switchBlock (braced (many1 rule) <|> braced (.many group))))
  | .switchLabel =>
    let bare := .rule (.expression false)
    .node .switchLabel
      ((word "case" ++
          anyOf
            [.rule .recordPattern ++ .unless (mark ",") .empty,
             .node .typePattern
              (.rule (.unannotatedType .expression) ++ identifier patternWords),
             list1 bare] ++
          optional (.node .guard (word "when" ++ bare))) <|>
        word "default")
  | .recordPattern =>
    .node .recordPattern
      ((.kept isRecordType (.rule (.simpleType .expression)) <|> identifier expressionWords) ++
        parens (list
          (.take (.word .identifier "_") <|>
           .rule .recordPattern <|>
           .node .typePattern
            (.rule (.unannotatedType .expression) ++ identifier []))))
  -- expressions
  | .expression arrow =>
    .grow (.rule (.binary 0 arrow))
      (.node .ternaryExpression
        (held ++ mark "?" ++ expression ++ mark ":" ++ .rule (.expression arrow)))
  | .binary level arrow =>
    match levels[level]? with
    | none => .rule (.operand arrow)
    | some ops =>
      let tighter := .rule (.binary (level + 1) arrow)
      let step := .node .binaryExpression (held ++ operators ops ++ tighter)
      .grow tighter
        (if level == relationalLevel then
          step <|>
          .node .instanceofExpression
            (held ++ word "instanceof" ++
              (.rule .recordPattern <|>
               (optional (word "final") ++ .rule (.type .plain) ++
                 optional (identifier bindingWords))))
        else step)
  | .operand arrow =>
    anyOf
      ([.node .updateExpression (operators ["++", "--"] ++ .rule (.operand arrow)),
        .node .unaryExpression (operators ["+", "-", "!", "~"] ++ .rule (.operand arrow)),
        .grow
          (anyOf
            ((if arrow then [.rule .lambda] else []) ++
              [.rule (.cast arrow), .rule .switchExpression, .rule (.assignable arrow)]))
          (.node .updateExpression (held ++ operators ["++", "--"]))])
  | .assignable arrow =>
    .grow (.rule .primary)
      (.node .assignmentExpression
        (.held isAssignable ++ operators assignmentOperators ++ .rule (.expression arrow)))
  | .lambda =>
    .node .lambdaExpression
      (anyOf
        [identifier expressionWords,
         .rule .formalParameters,
         .node .inferredParameters
          (parens (list1 (identifier (strictModifierWords ++ expressionWords))))] ++
        mark "->" ++ body (block <|> expression))
  | .cast arrow =>
    let target := .role .type (.rule (.type .expression))
    .unless signedName
      (.node .castExpression (parens target ++ .role .value (.rule (.operand arrow)))) <|>
    .node .castExpression
      (parens (target ++ many1 (mark "&" ++ target)) ++
        .role .value ((if arrow then .rule .lambda <|> .rule .primary else .rule .primary)))
  | .primary =>
    .grow (anyOf primaries)
      (anyOf
        [selections held,
         .node .objectCreationExpression (held ++ mark "." ++ creationRest),
         .node .arrayAccess (held ++ mark "[" ++ expression ++ mark "]"),
         .node .templateExpression (held ++ mark "." ++ .rule .stringLiteral)])
  | .creation => .node .objectCreationExpression creationRest
  | .arrayCreation =>
    .node .arrayCreationExpression
      (word "new" ++ annotations ++ .role .type (.rule (.simpleType .plain)) ++
        ((.rule .dimensions ++ .role .value (.rule .arrayInitializer)) <|>
         (many1 (.node .dimensionExpression
            (annotations ++ mark "[" ++ expression ++ mark "]")) ++
          optional (.rule .dimensions))))
  | .stringLiteral =>
    literals [.stringLiteral, .textBlock] <|>
    .node .stringLiteral
      (literals [.stringHead] ++ expression ++
        .many (literals [.stringMiddle] ++ expression) ++ literals [.stringTail])
  | .argumentList => .node .argumentList (parens (list expression))

end Grammar

/-- A file is any sequence of statements and methods. -/
def file : Grammar.P :=
  .many (.rule .statement <|> .rule .methodDeclaration)

/-- The syntax tree of a source text, if the text is well formed. -/
def parse? (source : String) : Option Tree :=
  match tokens? source with
  | none => none
  | some (tokens, last) =>
    match Pattern.match? Grammar.rules file tokens with
    | some (pieces, []) =>
      let first := (pieces.head?.map Piece.comments).getD []
      some (.branch .program
        (first.map (none, ·) ++ weave pieces ++ last.map (none, ·)))
    | _ => none

end StructureGraph.Java.Syntax
