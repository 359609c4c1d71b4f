import StructureGraph.Toml.Scalar

namespace StructureGraph.Toml

def isBareKeyChar (c : Char) : Bool := c.isAlphanum || c == '_' || c == '-'

def readSimpleKey (cs : List Char) : ReadString :=
  match cs.head? with
  | some '"' | some '\'' => readQuoted cs
  | _ =>
    match cs.takeWhile isBareKeyChar with
    | [] => none
    | key => some (String.ofList key, cs.dropWhile isBareKeyChar)

/-- A key whose parts are separated by dots: the parts in front of the last one, and that one. The
first argument bounds the number of parts. -/
def readKey : Nat → List Char → Option ((List String × String) × List Char)
  | 0, _ => none
  | n + 1, cs =>
    match readSimpleKey (skipBlanks cs) with
    | none => none
    | some (part, rest) =>
      match skipBlanks rest with
      | '.' :: rest =>
        (readKey n rest).map fun ((front, last), rest) => ((part :: front, last), rest)
      | rest => some (([], part), rest)

/-- The rest behind a comment. -/
def skipComment (cs : List Char) : List Char :=
  match cs with
  | '#' :: cs => cs.dropWhile isTextChar
  | cs => cs

/-- The rest behind the end of a line, where nothing but blanks and a comment may stand. -/
def lineEnd? (cs : List Char) : Option (List Char) :=
  match skipComment (skipBlanks cs) with
  | [] => some []
  | rest => lineBreak? rest

/-- Skip blanks, comments and line breaks between the values of an array. The first argument bounds
the number of comments. -/
def skipGap : Nat → List Char → List Char
  | 0, cs => cs
  | n + 1, cs =>
    match skipLines cs with
    | '#' :: rest =>
      match lineBreak? (rest.dropWhile isTextChar) with
      | some rest => skipGap n rest
      | none => '#' :: rest
    | rest => rest

mutual

/-- A value at the front; the first argument bounds how many values and separators are read. -/
def readValue : Nat → List Char → Option (Value × List Char)
  | 0, _ => none
  | n + 1, cs =>
    match cs with
    | '"' :: _ | '\'' :: _ => (readString cs).map fun (s, cs) => (.string s, cs)
    | '[' :: cs => (readItems n cs).map fun (items, cs) => (.array items, cs)
    | '\x7b' :: cs =>
      match skipBlanks cs with
      | '\x7d' :: cs => some (.table [], cs)
      | _ => (readPairs n Item.emptyTable cs).map fun (i, cs) => (i.toValue, cs)
    | cs => readWord cs

/-- The values of an array and its closing bracket. A comma may stand behind the last value. -/
def readItems : Nat → List Char → Option (List Value × List Char)
  | 0, _ => none
  | n + 1, cs =>
    match skipGap cs.length cs with
    | ']' :: cs => some ([], cs)
    | cs =>
      match readValue n cs with
      | none => none
      | some (v, cs) =>
        match skipGap cs.length cs with
        | ']' :: cs => some ([v], cs)
        | ',' :: cs => (readItems n cs).map fun (vs, cs) => (v :: vs, cs)
        | _ => none

/-- The assignments between braces and the closing one, added to a table. -/
def readPairs : Nat → Item → List Char → Option (Item × List Char)
  | 0, _, _ => none
  | n + 1, t, cs =>
    match readAssignment n t cs with
    | none => none
    | some (t, cs) =>
      match skipBlanks cs with
      | '\x7d' :: cs => some (t, cs)
      | ',' :: cs => readPairs n t cs
      | _ => none

/-- An assignment, added to a table. -/
def readAssignment : Nat → Item → List Char → Option (Item × List Char)
  | 0, _, _ => none
  | n + 1, t, cs =>
    match readKey cs.length cs with
    | some ((front, key), '=' :: cs) =>
      match readValue n (skipBlanks cs) with
      | some (v, cs) => (t.insert front key v).map (·, cs)
      | none => none
    | _ => none

end

/-- What is read so far: the document, and the keys that lead to the table of the last header. -/
structure Progress where
  root : Item
  current : List String

def Progress.empty : Progress := ⟨.emptyTable, []⟩

/-- A header in brackets, which opens a table. -/
def readHeader (p : Progress) (cs : List Char) : Option (Progress × List Char) :=
  match readKey cs.length cs with
  | some ((front, key), ']' :: cs) =>
    (p.root.descend false (Item.openTable key) front).map fun root => (⟨root, front ++ [key]⟩, cs)
  | _ => none

/-- A header in double brackets, which adds a table to an array. -/
def readArrayHeader (p : Progress) (cs : List Char) : Option (Progress × List Char) :=
  match readKey cs.length cs with
  | some ((front, key), ']' :: ']' :: cs) =>
    (p.root.descend false (Item.appendTable key) front).map fun root => (⟨root, front ++ [key]⟩, cs)
  | _ => none

/-- An assignment to the table of the last header. -/
def readEntry (p : Progress) (cs : List Char) : Option (Progress × List Char) :=
  match readKey cs.length cs with
  | some ((front, key), '=' :: cs) =>
    match readValue (2 * cs.length + 2) (skipBlanks cs) with
    | some (v, cs) =>
      (p.root.descend false (Item.insert front key v) p.current).map fun root =>
        (⟨root, p.current⟩, cs)
    | none => none
  | _ => none

/-- One line of a document. -/
def readLine (p : Progress) (cs : List Char) : Option (Progress × List Char) :=
  match skipBlanks cs with
  | [] => some (p, [])
  | '#' :: _ | '\n' :: _ | '\r' :: _ => (lineEnd? cs).map (p, ·)
  | '[' :: '[' :: cs => do
    let (p, cs) ← readArrayHeader p cs
    pure (p, ← lineEnd? cs)
  | '[' :: cs => do
    let (p, cs) ← readHeader p cs
    pure (p, ← lineEnd? cs)
  | cs => do
    let (p, cs) ← readEntry p cs
    pure (p, ← lineEnd? cs)

/-- All lines of a document; the first argument bounds their number. -/
def readLines : Nat → Progress → List Char → Option Progress
  | _, p, [] => some p
  | 0, _, _ => none
  | n + 1, p, cs =>
    match readLine p cs with
    | some (p, cs) => readLines n p cs
    | none => none

/-- The entries of a document. -/
def read? (text : String) : Option (List (String × Value)) :=
  let cs :=
    match text.toList with
    | '\ufeff' :: cs => cs
    | cs => cs
  match readLines (cs.length + 1) .empty cs with
  | some ⟨.table _ _ entries, _⟩ => some (Item.toValues entries)
  | _ => none

end StructureGraph.Toml
