import StructureGraph.Json.Basic

namespace StructureGraph.Json

def isGap (c : Char) : Bool :=
  c == ' ' || c == '\n' || c == '\t' || c == '\r'

def skipGap (cs : List Char) : List Char := cs.dropWhile isGap

def hexDigit? (c : Char) : Option Nat :=
  if '0' ≤ c ∧ c ≤ '9' then some (c.toNat - 48)
  else if 'a' ≤ c ∧ c ≤ 'f' then some (c.toNat - 87)
  else if 'A' ≤ c ∧ c ≤ 'F' then some (c.toNat - 55)
  else none

def unit? (a b c d : Char) : Option Nat := do
  let a ← hexDigit? a
  let b ← hexDigit? b
  let c ← hexDigit? c
  let d ← hexDigit? d
  pure (((a * 16 + b) * 16 + c) * 16 + d)

def isHighSurrogate (u : Nat) : Bool := decide (0xD800 ≤ u) && decide (u < 0xDC00)

def isLowSurrogate (u : Nat) : Bool := decide (0xDC00 ≤ u) && decide (u < 0xE000)

def simpleEscape? : Char → Option Char
  | '"' => some '"'
  | '\\' => some '\\'
  | '/' => some '/'
  | 'b' => some '\x08'
  | 'f' => some '\x0c'
  | 'n' => some '\n'
  | 'r' => some '\r'
  | 't' => some '\t'
  | _ => none

/-- The text up to the closing quote; `text` holds what was read, reversed. A surrogate stands
only in front of its partner. -/
def readString (text : List Char) : List Char → Option (String × List Char)
  | '"' :: cs => some (String.ofList text.reverse, cs)
  | '\\' :: 'u' :: a :: b :: c :: d :: '\\' :: 'u' :: a' :: b' :: c' :: d' :: cs =>
    match unit? a b c d with
    | none => none
    | some u =>
      if isHighSurrogate u then
        match unit? a' b' c' d' with
        | none => none
        | some v =>
          if isLowSurrogate v then
            readString (Char.ofNat (0x10000 + (u - 0xD800) * 0x400 + (v - 0xDC00)) :: text) cs
          else none
      else if isLowSurrogate u then none
      else readString (Char.ofNat u :: text) ('\\' :: 'u' :: a' :: b' :: c' :: d' :: cs)
  | '\\' :: 'u' :: a :: b :: c :: d :: cs =>
    match unit? a b c d with
    | none => none
    | some u =>
      if isHighSurrogate u || isLowSurrogate u then none
      else readString (Char.ofNat u :: text) cs
  | '\\' :: c :: cs =>
    match simpleEscape? c with
    | some e => readString (e :: text) cs
    | none => none
  | c :: cs => if c.toNat < 32 || c == '\\' then none else readString (c :: text) cs
  | [] => none
termination_by cs => cs.length

/-- What follows a string of which nothing is kept. Surrogates in it need no partners. -/
def skipString : List Char → Option (List Char)
  | '"' :: cs => some cs
  | '\\' :: 'u' :: a :: b :: c :: d :: cs =>
    if (unit? a b c d).isSome then skipString cs else none
  | '\\' :: c :: cs => if (simpleEscape? c).isSome then skipString cs else none
  | c :: cs => if c.toNat < 32 || c == '\\' then none else skipString cs
  | [] => none

/-- A string, if it is text, and what follows it. -/
def readText (cs : List Char) : Option (Option String × List Char) :=
  match readString [] cs with
  | some (s, rest) => some (some s, rest)
  | none => (skipString cs).map (none, ·)

def takeDigits (cs : List Char) : List Char × List Char :=
  (cs.takeWhile Char.isDigit, cs.dropWhile Char.isDigit)

def readWhole : List Char → Option (List Char × List Char)
  | '0' :: cs => some (['0'], cs)
  | cs =>
    match takeDigits cs with
    | ([], _) => none
    | found => some found

def readFraction : List Char → Option (List Char × List Char)
  | '.' :: cs =>
    match takeDigits cs with
    | ([], _) => none
    | (ds, rest) => some ('.' :: ds, rest)
  | cs => some ([], cs)

def readExponentDigits (front : List Char) (cs : List Char) : Option (List Char × List Char) :=
  match takeDigits cs with
  | ([], _) => none
  | (ds, rest) => some (front ++ ds, rest)

def readExponent : List Char → Option (List Char × List Char)
  | e :: cs =>
    if e == 'e' || e == 'E' then
      match cs with
      | '+' :: cs => readExponentDigits [e, '+'] cs
      | '-' :: cs => readExponentDigits [e, '-'] cs
      | cs => readExponentDigits [e] cs
    else some ([], e :: cs)
  | [] => some ([], [])

def readUnsigned (sign : List Char) (cs : List Char) : Option (Value × List Char) := do
  let (whole, cs) ← readWhole cs
  let (fraction, cs) ← readFraction cs
  let (exponent, cs) ← readExponent cs
  pure (.number (String.ofList (sign ++ whole ++ fraction ++ exponent)), cs)

def readNumber : List Char → Option (Value × List Char)
  | '-' :: cs => readUnsigned ['-'] cs
  | cs => readUnsigned [] cs

def readWord (word : String) (v : Value) (cs : List Char) : Option (Value × List Char) :=
  (word.toList.isPrefixOf? cs).map (v, ·)

def readKey (cs : List Char) : Option (Option String × List Char) :=
  match skipGap cs with
  | '"' :: cs =>
    match readText cs with
    | none => none
    | some (key, cs) =>
      match skipGap cs with
      | ':' :: cs => some (key, cs)
      | _ => none
  | _ => none

def Value.ofText? : Option String → Value
  | some s => .string s
  | none => .garbled

/-- Put a field in front of those of an object. -/
def Value.addField (name : Option String) (v : Value) : Value → Value
  | .object fields =>
    match name with
    | some n => .object ((n, v) :: fields)
    | none => .garbled
  | _ => .garbled

mutual

/-- A value at the front; the first argument bounds how many values and separators are read. -/
def readValue : Nat → List Char → Option (Value × List Char)
  | 0, _ => none
  | n + 1, cs =>
    match skipGap cs with
    | 'n' :: cs => readWord "ull" .null cs
    | 't' :: cs => readWord "rue" (.bool true) cs
    | 'f' :: cs => readWord "alse" (.bool false) cs
    | '"' :: cs => (readText cs).map fun (s, cs) => (.ofText? s, cs)
    | '[' :: cs =>
      match skipGap cs with
      | ']' :: cs => some (.array [], cs)
      | _ => (readItems n cs).map fun (items, cs) => (.array items, cs)
    | '\x7b' :: cs =>
      match skipGap cs with
      | '\x7d' :: cs => some (.object [], cs)
      | _ => readFields n cs
    | cs => readNumber cs

def readItems : Nat → List Char → Option (List Value × List Char)
  | 0, _ => none
  | n + 1, cs =>
    match readValue n cs with
    | none => none
    | some (v, cs) =>
      match skipGap cs with
      | ']' :: cs => some ([v], cs)
      | ',' :: cs => (readItems n cs).map fun (vs, cs) => (v :: vs, cs)
      | _ => none

/-- The object that the fields at the front make. -/
def readFields : Nat → List Char → Option (Value × List Char)
  | 0, _ => none
  | n + 1, cs =>
    match readKey cs with
    | none => none
    | some (key, cs) =>
      match readValue n cs with
      | none => none
      | some (v, cs) =>
        match skipGap cs with
        | '\x7d' :: cs => some (.addField key v (.object []), cs)
        | ',' :: cs => (readFields n cs).map fun (fields, cs) => (.addField key v fields, cs)
        | _ => none

end

def read? (text : String) : Option Value :=
  match readValue (2 * text.length + 2) text.toList with
  | some (v, rest) => if skipGap rest = [] then some v else none
  | none => none

end StructureGraph.Json
