
namespace StructureGraph.Json

inductive Value where
  | null
  | bool (b : Bool)
  | number (text : String)
  | string (s : String)
  | array (items : List Value)
  | object (fields : List (String × Value))
  /-- A string that is no text, since half of a pair of surrogates stands in it, or an object with such a
  name. -/
  | garbled
  deriving Inhabited

namespace Value

def ofNat (n : Nat) : Value := .number (toString n)

/-- The value of the only field of this name. -/
def field? (name : String) : Value → Option Value
  | object fields =>
    match fields.filter (·.1 == name) with
    | [f] => some f.2
    | _ => none
  | _ => none

/-- The fields of a record, each given by name in an object or by position in a list. Fields that
are not given are `none`; a name given twice or too long a list is no record. -/
def record? (names : List String) : Value → Option (List (Option Value))
  | object fields =>
    names.mapM fun name =>
      match fields.filter (·.1 == name) with
      | [] => some none
      | [f] => some (some f.2)
      | _ => none
  | array items =>
    if items.length ≤ names.length then
      some (items.map some ++ List.replicate (names.length - items.length) none)
    else none
  | _ => none

def string? : Value → Option String
  | string s => some s
  | _ => none

def strings? : Value → Option (List String)
  | array items => items.mapM string?
  | _ => none

end Value

mutual

/-- No part of the value is garbled. -/
def Value.isClear : Value → Bool
  | .array items => itemsClear items
  | .object fields => fieldsClear fields
  | .garbled => false
  | _ => true

def itemsClear : List Value → Bool
  | [] => true
  | v :: vs => v.isClear && itemsClear vs

def fieldsClear : List (String × Value) → Bool
  | [] => true
  | (_, v) :: fs => v.isClear && fieldsClear fs

end

def Value.items? : Value → Option (List Value)
  | .array items => some items
  | _ => none

/-- The value of a text of decimal digits. -/
def digitsValue (cs : List Char) : Nat :=
  cs.foldl (fun n c => 10 * n + (c.toNat - 48)) 0

/-- A number written with digits alone. -/
def Value.nat? : Value → Option Nat
  | number text =>
    if !text.isEmpty && text.toList.all Char.isDigit then some (digitsValue text.toList) else none
  | _ => none

end StructureGraph.Json
