import StructureGraph.Text.Identifier
import StructureGraph.Java.Syntax.Tree

namespace StructureGraph.Java.Syntax

open StructureGraph.Text (isIdentifierStart isIdentifierPart)

/-- A word is anything spelled like an identifier; the grammar decides which words are keywords. -/
inductive Shape where
  | word
  | mark
  | literal (kind : Kind)
  deriving DecidableEq, Repr

structure Lexeme where
  shape : Shape
  gap : String
  text : String
  line : Nat
  deriving Repr

/-- A token with the comments before it. -/
structure Token where
  comments : List Tree
  shape : Shape
  gap : String
  text : String
  line : Nat

namespace Token

def leaf (k : Kind) (t : Token) : Tree :=
  .leaf k t.gap t.text t.line

/-- The token touches the one before it. -/
def isGlued (t : Token) : Bool :=
  t.comments.isEmpty && t.gap.isEmpty

end Token

/-- The characters that may stand between tokens. Of the blanks these are few. -/
def isSpace (c : Char) : Bool :=
  c == ' ' || (decide ('\t' ≤ c) && decide (c ≤ '\r'))

def isWordStart (c : Char) : Bool :=
  isIdentifierStart c || c == '_' || c == '$'

def isWordPart (c : Char) : Bool :=
  isIdentifierPart c || c == '$' || c == '\u00A2'

def isDecimal (c : Char) : Bool :=
  decide ('0' ≤ c) && decide (c ≤ '9')

def isOctal (c : Char) : Bool :=
  decide ('0' ≤ c) && decide (c ≤ '7')

def isBinary (c : Char) : Bool :=
  c == '0' || c == '1'

def isHex (c : Char) : Bool :=
  isDecimal c || (decide ('a' ≤ c) && decide (c ≤ 'f')) || (decide ('A' ≤ c) && decide (c ≤ 'F'))

/-- How far a digit group reaches that starts and ends with a digit and may hold underscores:
`reached` is the length up to the last digit, `passed` the length looked at. -/
def digitsFrom (digit : Char → Bool) (reached passed : Nat) : List Char → Nat
  | [] => reached
  | c :: cs =>
    if digit c then digitsFrom digit (passed + 1) (passed + 1) cs
    else if c == '_' && decide (0 < reached) then digitsFrom digit reached (passed + 1) cs
    else reached

def digits (digit : Char → Bool) (cs : List Char) : Nat :=
  digitsFrom digit 0 0 cs

/-- A decimal number without leading zeros. -/
def plainDigits (cs : List Char) : Nat :=
  match cs with
  | '0' :: _ => 1
  | _ => digits isDecimal cs

def oneOf (options : List Char) : List Char → Nat
  | [] => 0
  | c :: _ => if options.contains c then 1 else 0

/-- An exponent with its mark, or nothing. -/
def exponent (marks : List Char) (cs : List Char) : Nat :=
  match cs with
  | [] => 0
  | c :: rest =>
    if marks.contains c then
      let sign := oneOf ['+', '-'] rest
      match digits isDecimal (rest.drop sign) with
      | 0 => 0
      | n => 1 + sign + n
    else 0

def withSuffix (suffixes : List Char) (cs : List Char) (n : Nat) : Nat :=
  n + oneOf suffixes (cs.drop n)

def longSuffix : List Char := ['l', 'L']
def floatSuffix : List Char := ['f', 'F', 'd', 'D']

def isRadixMark (lower : Char) (c : Char) : Bool :=
  c == lower || c == lower.toUpper

def prefixedInteger (mark : Char) (digit : Char → Bool) : List Char → Nat
  | '0' :: m :: rest =>
    if isRadixMark mark m then
      match digits digit rest with
      | 0 => 0
      | n => withSuffix longSuffix ('0' :: m :: rest) (2 + n)
    else 0
  | _ => 0

def octalInteger (cs : List Char) : Nat :=
  match cs with
  | '0' :: rest =>
    match digits isOctal rest with
    | 0 => prefixedInteger 'o' isOctal cs
    | n => withSuffix longSuffix cs (1 + n)
  | _ => 0

def decimalInteger (cs : List Char) : Nat :=
  match plainDigits cs with
  | 0 => 0
  | n => withSuffix longSuffix cs n

/-- Digits on at least one side of a point, or an exponent, or a suffix. -/
def decimalFloat (cs : List Char) : Nat :=
  let whole := digits isDecimal cs
  match cs.drop whole with
  | '.' :: rest =>
    let fraction := digits isDecimal rest
    if whole == 0 && fraction == 0 then 0
    else
      let n := whole + 1 + fraction
      withSuffix floatSuffix cs (n + exponent ['e', 'E'] (cs.drop n))
  | _ =>
    let plain := plainDigits cs
    if plain == 0 then 0
    else
      let n := plain + exponent ['e', 'E'] (cs.drop plain)
      let n' := withSuffix floatSuffix cs n
      if n' == plain then 0 else n'

def hexFloat : List Char → Nat
  | '0' :: m :: rest =>
    if isRadixMark 'x' m then
      let whole := digits isHex rest
      let point := oneOf ['.'] (rest.drop whole)
      let fraction := if point == 1 then digits isHex (rest.drop (whole + 1)) else 0
      if whole == 0 && fraction == 0 then 0
      else
        let n := 2 + whole + point + fraction
        let power := exponent ['p', 'P'] (('0' :: m :: rest).drop n)
        if power == 0 then n
        else withSuffix floatSuffix ('0' :: m :: rest) (n + power)
    else 0
  | _ => 0

/-- The longest number literal at the front; of equally long readings the first listed. -/
def number? (cs : List Char) : Option (Shape × Nat) :=
  let readings : List (Kind × Nat) :=
    [(.decimalInteger, decimalInteger cs), (.hexInteger, prefixedInteger 'x' isHex cs),
     (.octalInteger, octalInteger cs), (.binaryInteger, prefixedInteger 'b' isBinary cs),
     (.decimalFloat, decimalFloat cs), (.hexFloat, hexFloat cs)]
  let best := readings.foldl (fun b r => if b.2 < r.2 then r else b) (.decimalInteger, 0)
  if best.2 == 0 then none else some (.literal best.1, best.2)

def characterEnd (length : Nat) : List Char → Option Nat
  | '\\' :: _ :: cs => characterEnd (length + 2) cs
  | '\'' :: _ => if length == 1 then none else some (length + 1)
  | '\n' :: _ => none
  | _ :: cs => characterEnd (length + 1) cs
  | [] => none

/-- Where a stretch of string text stops: at its end, or at an embedded expression. -/
inductive Stop where
  | close
  | hole
  deriving DecidableEq

/-- The character behind a backslash and what follows it form an escape. -/
def isEscape : List Char → Bool
  | 'x' :: a :: b :: _ => isHex a && isHex b
  | 'x' :: _ => false
  | 'u' :: '\x7b' :: cs =>
    let inside := cs.takeWhile isHex
    !inside.isEmpty && (cs.drop inside.length).head? == some '\x7d'
  | 'u' :: a :: b :: c :: d :: _ => isHex a && isHex b && isHex c && isHex d
  | 'u' :: _ => false
  | _ :: _ => true
  | [] => false

def stringEnd (length : Nat) : List Char → Option (Stop × Nat)
  | '"' :: _ => some (.close, length + 1)
  | '\\' :: c :: cs =>
    if c == '\x7b' then some (.hole, length + 2)
    else if isEscape (c :: cs) then stringEnd (length + 2) cs
    else none
  | _ :: cs => stringEnd (length + 1) cs
  | [] => none

def textBlockEnd (length : Nat) : List Char → Option (Stop × Nat)
  | '"' :: '"' :: '"' :: _ => some (.close, length + 3)
  | '\\' :: c :: cs =>
    if c == '\x7b' then some (.hole, length + 2) else textBlockEnd (length + 2) cs
  | _ :: cs => textBlockEnd (length + 1) cs
  | [] => none

/-- The kind of string an embedded expression interrupts. -/
inductive Quote where
  | line
  | block
  deriving DecidableEq

def Quote.stop (q : Quote) (length : Nat) (cs : List Char) : Option (Stop × Nat) :=
  match q with
  | .line => stringEnd length cs
  | .block => textBlockEnd length cs

def marks : List String :=
  ["@interface", "<<=", "...", "->", "::", "++", "--", "&&", "||", "==", "!=", "<=", "+=", "-=",
   "*=", "/=", "&=", "|=", "^=", "%=", "<<", "(", ")", "\x7b", "\x7d", "[", "]", ";", ",", ".",
   "@", "=", "<", ">", "!", "~", "?", ":", "+", "-", "*", "/", "&", "|", "^", "%"]

/-- The first mark of the list that the text begins with. A `>` always stands alone, since it may
close type arguments. -/
def mark? (cs : List Char) : Option (Shape × Nat) :=
  (marks.find? (·.toList.isPrefixOf cs)).map fun m => (.mark, m.length)

def commentEnd (length : Nat) : List Char → Option Nat
  | '*' :: '/' :: _ => some (length + 2)
  | _ :: cs => commentEnd (length + 1) cs
  | [] => none

def comment? : List Char → Option (Shape × Nat)
  | '/' :: '/' :: cs => some (.literal .lineComment, 2 + (cs.takeWhile (· != '\n')).length)
  | '/' :: '*' :: cs => (commentEnd 2 cs).map fun n => (.literal .blockComment, n)
  | _ => none

/-- An embedded expression: the string it interrupts and how many braces are open in it. -/
structure Hole where
  quote : Quote
  depth : Nat

def stringLexeme (q : Quote) (holes : List Hole) (atClose atHole : Kind) :
    Stop × Nat → (Shape × Nat) × List Hole
  | (.close, n) => ((.literal atClose, n), holes)
  | (.hole, n) => ((.literal atHole, n), ⟨q, 0⟩ :: holes)

/-- The lexeme at the front with its length, and the holes open behind it. -/
def lexeme? (holes : List Hole) (cs : List Char) : Option ((Shape × Nat) × List Hole) :=
  match cs with
  | '"' :: '"' :: '"' :: rest =>
    (textBlockEnd 3 rest).map (stringLexeme .block holes .textBlock .stringHead)
  | '"' :: rest => (stringEnd 1 rest).map (stringLexeme .line holes .stringLiteral .stringHead)
  | '\'' :: rest => (characterEnd 1 rest).map fun n => ((.literal .characterLiteral, n), holes)
  | '\x7b' :: _ =>
    match holes with
    | h :: hs => some ((.mark, 1), ⟨h.quote, h.depth + 1⟩ :: hs)
    | [] => some ((.mark, 1), [])
  | '\x7d' :: rest =>
    match holes with
    | ⟨q, 0⟩ :: hs => (q.stop 1 rest).map (stringLexeme q hs .stringTail .stringMiddle)
    | ⟨q, d + 1⟩ :: hs => some ((.mark, 1), ⟨q, d⟩ :: hs)
    | [] => some ((.mark, 1), [])
  | c :: rest =>
    if isWordStart c then some ((.word, 1 + (rest.takeWhile isWordPart).length), holes)
    else (((comment? cs).orElse fun _ => number? cs).orElse fun _ => mark? cs).map (·, holes)
  | [] => none

/-- All lexemes of a text, or nothing if some character begins none. -/
def lexemesFrom (holes : List Hole) (line : Nat) (cs : List Char) : Option (List Lexeme) :=
  let gap := cs.takeWhile isSpace
  let rest := cs.drop gap.length
  let here := line + gap.count '\n'
  if _h : rest = [] then some []
  else
    match lexeme? holes rest with
    | none => none
    | some ((shape, n), holes') =>
      let text := rest.take (max n 1)
      (lexemesFrom holes' (here + text.count '\n') (rest.drop (max n 1))).map
        (⟨shape, String.ofList gap, String.ofList text, here⟩ :: ·)
termination_by cs.length
decreasing_by
  have hrest : 0 < rest.length := List.length_pos_iff.mpr _h
  simp only [rest, List.length_drop] at hrest ⊢
  omega

def Lexeme.comment? (l : Lexeme) : Option Tree :=
  match l.shape with
  | .literal k => if k.isComment then some (.leaf k l.gap l.text l.line) else none
  | _ => none

/-- Each token takes the comments before it; those behind the last token are left over. -/
def attach (comments : List Tree) : List Lexeme → List Token × List Tree
  | [] => ([], comments)
  | l :: ls =>
    match l.comment? with
    | some c => attach (comments ++ [c]) ls
    | none =>
      let (tokens, last) := attach [] ls
      (⟨comments, l.shape, l.gap, l.text, l.line⟩ :: tokens, last)

/-- The tokens of a source text and the comments behind them. A byte order mark at the very
beginning is no part of the text. -/
def tokens? (source : String) : Option (List Token × List Tree) :=
  let cs :=
    match source.toList with
    | '\uFEFF' :: cs => cs
    | cs => cs
  (lexemesFrom [] 1 cs).map (attach [])

end StructureGraph.Java.Syntax
