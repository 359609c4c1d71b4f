import StructureGraph.Json.Basic

namespace StructureGraph.Json

def hexChar (n : Nat) : Char :=
  if n < 10 then Char.ofNat (48 + n) else Char.ofNat (87 + n)

/-- Quotes, backslashes and control characters are escaped; all else is written as it is. -/
def escape (c : Char) : List Char :=
  match c with
  | '"' => ['\\', '"']
  | '\\' => ['\\', '\\']
  | '\x08' => ['\\', 'b']
  | '\x0c' => ['\\', 'f']
  | '\n' => ['\\', 'n']
  | '\r' => ['\\', 'r']
  | '\t' => ['\\', 't']
  | c =>
    if c.toNat < 32 then ['\\', 'u', '0', '0', hexChar (c.toNat / 16), hexChar (c.toNat % 16)]
    else [c]

def quote (s : String) : List Char :=
  '"' :: s.toList.flatMap escape ++ ['"']

mutual

def compactChars : Value → List Char
  | .null | .garbled => "null".toList
  | .bool b => (if b then "true" else "false").toList
  | .number text => text.toList
  | .string s => quote s
  | .array items => '[' :: compactItems items ++ [']']
  | .object fields => '\x7b' :: compactFields fields ++ ['\x7d']

def compactItems : List Value → List Char
  | [] => []
  | [v] => compactChars v
  | v :: vs => compactChars v ++ ',' :: compactItems vs

def compactFields : List (String × Value) → List Char
  | [] => []
  | [(k, v)] => quote k ++ ':' :: compactChars v
  | (k, v) :: fs => quote k ++ ':' :: compactChars v ++ ',' :: compactFields fs

end

def compact (v : Value) : String := String.ofList (compactChars v)

def newLine (level : Nat) : List Char := '\n' :: List.replicate (2 * level) ' '

mutual

def prettyChars (level : Nat) : Value → List Char
  | .null | .garbled => "null".toList
  | .bool b => (if b then "true" else "false").toList
  | .number text => text.toList
  | .string s => quote s
  | .array [] => ['[', ']']
  | .array (v :: vs) =>
    '[' :: prettyItems (level + 1) (v :: vs) ++ newLine level ++ [']']
  | .object [] => ['\x7b', '\x7d']
  | .object (f :: fs) =>
    '\x7b' :: prettyFields (level + 1) (f :: fs) ++ newLine level ++ ['\x7d']

def prettyItems (level : Nat) : List Value → List Char
  | [] => []
  | [v] => newLine level ++ prettyChars level v
  | v :: vs => newLine level ++ prettyChars level v ++ ',' :: prettyItems level vs

def prettyFields (level : Nat) : List (String × Value) → List Char
  | [] => []
  | [(k, v)] => newLine level ++ quote k ++ ':' :: ' ' :: prettyChars level v
  | (k, v) :: fs =>
    newLine level ++ quote k ++ ':' :: ' ' :: prettyChars level v ++ ',' :: prettyFields level fs

end

/-- The indented text, without a line break at its end. -/
def pretty (v : Value) : String := String.ofList (prettyChars 0 v)

end StructureGraph.Json
