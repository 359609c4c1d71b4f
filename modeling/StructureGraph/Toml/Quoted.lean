import StructureGraph.Json.Reader

namespace StructureGraph.Toml

open StructureGraph.Json (hexDigit?)

def isBlank (c : Char) : Bool := c == ' ' || c == '\t'

def skipBlanks (cs : List Char) : List Char := cs.dropWhile isBlank

/-- The rest behind a line break. -/
def lineBreak? : List Char → Option (List Char)
  | '\n' :: cs => some cs
  | '\r' :: '\n' :: cs => some cs
  | _ => none

/-- Skip blanks and line breaks. -/
def skipLines : List Char → List Char
  | '\r' :: '\n' :: cs => skipLines cs
  | c :: cs => if isBlank c || c == '\n' then skipLines cs else c :: cs
  | [] => []

/-- What may stand in strings and comments: no control characters other than tabs. -/
def isTextChar (c : Char) : Bool :=
  c == '\t' || (decide (' ' ≤ c) && c != '\x7f')

/-- The character with the code point that hexadecimal digits give. -/
def scalar? (digits : List Char) : Option Char := do
  let ds ← digits.mapM hexDigit?
  let n := ds.foldl (fun n d => 16 * n + d) 0
  if h : n.isValidChar then some (Char.ofNatAux n h) else none

def escape? : Char → Option Char
  | '"' => some '"'
  | '\\' => some '\\'
  | 'b' => some '\x08'
  | 'f' => some '\x0c'
  | 'n' => some '\n'
  | 'r' => some '\r'
  | 't' => some '\t'
  | _ => none

/-- A character behind a backslash, and the rest. -/
def readEscape : List Char → Option (Char × List Char)
  | 'u' :: a :: b :: c :: d :: cs => (scalar? [a, b, c, d]).map (·, cs)
  | 'U' :: a :: b :: c :: d :: e :: f :: g :: h :: cs =>
    (scalar? [a, b, c, d, e, f, g, h]).map (·, cs)
  | c :: cs => (escape? c).map (·, cs)
  | [] => none

theorem length_readEscape {cs rest : List Char} {c : Char} (h : readEscape cs = some (c, rest)) :
    rest.length < cs.length := by
  unfold readEscape at h
  split at h
  · obtain ⟨_, _, h⟩ := Option.map_eq_some_iff.mp h
    injection h with _ h
    subst h
    simp only [List.length_cons]
    omega
  · obtain ⟨_, _, h⟩ := Option.map_eq_some_iff.mp h
    injection h with _ h
    subst h
    simp only [List.length_cons]
    omega
  · obtain ⟨_, _, h⟩ := Option.map_eq_some_iff.mp h
    injection h with _ h
    subst h
    simp
  · cases h

theorem length_skipLines : ∀ cs : List Char, (skipLines cs).length ≤ cs.length
  | [] => by simp [skipLines]
  | c :: cs => by
    unfold skipLines
    split
    · rename_i rest h
      injection h with _ h
      subst h
      have := length_skipLines rest
      simp only [List.length_cons]
      omega
    · rename_i d ds _ h
      injection h with _ h
      subst h
      have := length_skipLines cs
      split <;> simp only [List.length_cons] <;> omega
    · simp
termination_by cs => cs.length

abbrev ReadString := Option (String × List Char)

/-- A basic string up to its closing quote; `text` holds what was read, reversed. -/
def readBasic (text : List Char) (cs : List Char) : ReadString :=
  match cs with
  | [] => none
  | '"' :: cs => some (String.ofList text.reverse, cs)
  | '\\' :: cs =>
    match h : readEscape cs with
    | some (c, rest) =>
      have := length_readEscape h
      readBasic (c :: text) rest
    | none => none
  | c :: cs => if isTextChar c then readBasic (c :: text) cs else none
termination_by cs.length

def readLiteral (text : List Char) : List Char → ReadString
  | [] => none
  | '\'' :: cs => some (String.ofList text.reverse, cs)
  | c :: cs => if isTextChar c then readLiteral (c :: text) cs else none

/-- Up to two quotes in front of three closing ones belong to the string. -/
def closeLines (quote : Char) (text : List Char) : List Char → ReadString
  | c :: d :: cs =>
    if c = quote ∧ d = quote then some (String.ofList (c :: d :: text).reverse, cs)
    else if c = quote then some (String.ofList (c :: text).reverse, d :: cs)
    else some (String.ofList text.reverse, c :: d :: cs)
  | [c] =>
    if c = quote then some (String.ofList (c :: text).reverse, [])
    else some (String.ofList text.reverse, [c])
  | [] => some (String.ofList text.reverse, [])

/-- A basic string of several lines. A backslash at the end of a line leaves out all blanks and line
breaks that follow. -/
def readBasicLines (text : List Char) (cs : List Char) : ReadString :=
  match cs with
  | [] => none
  | '"' :: '"' :: '"' :: cs => closeLines '"' text cs
  | '\r' :: '\n' :: cs => readBasicLines ('\n' :: text) cs
  | '\n' :: cs => readBasicLines ('\n' :: text) cs
  | '\\' :: cs =>
    match lineBreak? (skipBlanks cs) with
    | some _ =>
      have := length_skipLines cs
      readBasicLines text (skipLines cs)
    | none =>
      match h : readEscape cs with
      | some (c, rest) =>
        have := length_readEscape h
        readBasicLines (c :: text) rest
      | none => none
  | c :: cs => if isTextChar c then readBasicLines (c :: text) cs else none
termination_by cs.length

def readLiteralLines (text : List Char) : List Char → ReadString
  | [] => none
  | '\'' :: '\'' :: '\'' :: cs => closeLines '\'' text cs
  | '\r' :: '\n' :: cs => readLiteralLines ('\n' :: text) cs
  | c :: cs => if isTextChar c || c == '\n' then readLiteralLines (c :: text) cs else none

/-- A line break behind the opening quotes is left out. -/
def skipFirstBreak (cs : List Char) : List Char := (lineBreak? cs).getD cs

/-- A string of one line. -/
def readQuoted : List Char → ReadString
  | '"' :: cs => readBasic [] cs
  | '\'' :: cs => readLiteral [] cs
  | _ => none

/-- A string of any kind. -/
def readString : List Char → ReadString
  | '"' :: '"' :: '"' :: cs => readBasicLines [] (skipFirstBreak cs)
  | '\'' :: '\'' :: '\'' :: cs => readLiteralLines [] (skipFirstBreak cs)
  | cs => readQuoted cs

end StructureGraph.Toml
