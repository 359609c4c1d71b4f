
namespace StructureGraph.Toml

inductive Value where
  | string (s : String)
  | integer (n : Int)
  | float (x : Float)
  | boolean (b : Bool)
  | dateTime
  | array (items : List Value)
  | table (entries : List (String × Value))
  deriving Inhabited

/-- What a key stands for while a document is read. -/
inductive Item where
  /-- A value, which nothing can be added to. -/
  | value (v : Value)
  /-- A table. It is implicit unless a header or braces name it. -/
  | table (isImplicit isDotted : Bool) (entries : List (String × Item))
  | tables (elements : List Item)
  deriving Inhabited

namespace Item

def emptyTable : Item := table false false []

mutual

def toValue : Item → Value
  | value v => v
  | table _ _ entries => .table (toValues entries)
  | tables elements => .array (toElements elements)

def toValues : List (String × Item) → List (String × Value)
  | [] => []
  | (k, i) :: es => (k, toValue i) :: toValues es

def toElements : List Item → List Value
  | [] => []
  | i :: is => toValue i :: toElements is

end

/-- Change the entry of a key, which begins as `new` if it is not there. -/
def updateEntry (key : String) (new : Item) (f : Item → Option Item) :
    List (String × Item) → Option (List (String × Item))
  | [] => (f new).map fun i => [(key, i)]
  | e :: es =>
    if e.1 = key then (f e.2).map fun i => (key, i) :: es
    else (updateEntry key new f es).map (e :: ·)

def updateLast (f : Item → Option Item) : List Item → Option (List Item)
  | [] => none
  | [i] => (f i).map ([·])
  | i :: is => (updateLast f is).map (i :: ·)

/-- Change the table that a path of keys leads to. Tables on the way are made where they are not
there; of an array of tables the last one is meant. Dotted keys lead through no table that has a
header. -/
def descend (dotted : Bool) (f : Item → Option Item) : List String → Item → Option Item
  | [], i => f i
  | k :: ks, table isImplicit isDotted entries =>
    (updateEntry k (table true dotted []) (fun
      | value _ => none
      | tables elements => (updateLast (descend dotted f ks) elements).map tables
      | child@(table childImplicit _ _) =>
        if dotted && !childImplicit then none else descend dotted f ks child) entries).map
      (table isImplicit isDotted)
  | _, _ => none

/-- Give a key of a table its only value. -/
def insertNew (key : String) (v : Value) (isDottedKey : Bool) : Item → Option Item
  | table isImplicit isDotted entries =>
    if isDotted != isDottedKey || entries.any (·.1 == key) then none
    else some (table isImplicit isDotted (entries ++ [(key, value v)]))
  | _ => none

/-- Give the value to a dotted key, whose last part is given by itself. -/
def insert (front : List String) (key : String) (v : Value) : Item → Option Item :=
  descend true (insertNew key v (!front.isEmpty)) front

/-- A header makes a table, or names one that was implicit so far. -/
def openTable (key : String) : Item → Option Item
  | table isImplicit isDotted entries =>
    (updateEntry key (table true false []) (fun
      | table true false es => some (table false false es)
      | _ => none) entries).map (table isImplicit isDotted)
  | _ => none

/-- A header in double brackets adds a table to an array. -/
def appendTable (key : String) : Item → Option Item
  | table isImplicit isDotted entries =>
    (updateEntry key (tables []) (fun
      | tables elements => some (tables (elements ++ [emptyTable]))
      | _ => none) entries).map (table isImplicit isDotted)
  | _ => none

end Item

end StructureGraph.Toml
