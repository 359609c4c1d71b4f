import StructureGraph.Json.Basic

namespace StructureGraph

inductive Fact where
  | classDeclared (name : String)
  | methodDeclared (owner name : String) (visibility : Option String)
  | methodCall (owner caller callee : String)
  | controlFlow (owner method kind condition : String)
  | inherits (owner parent : String)
  | implements (owner interface : String)
  | fieldDeclared (owner name type visibility : String)
  | imports (owner imported : String)
  deriving DecidableEq, Repr

namespace Fact

def describe : Fact → String
  | classDeclared name => "ClassDeclared(" ++ name ++ ")"
  | methodDeclared owner name (some visibility) =>
    "MethodDeclared(" ++ owner ++ ", " ++ name ++ ", " ++ visibility ++ ")"
  | methodDeclared owner name none => "MethodDeclared(" ++ owner ++ ", " ++ name ++ ")"
  | methodCall _ caller callee => "MethodCall(" ++ caller ++ ", " ++ callee ++ ")"
  | controlFlow _ method kind condition =>
    "ControlFlow(" ++ method ++ ", " ++ kind ++ ", " ++ condition ++ ")"
  | inherits owner parent => "Inherits(" ++ owner ++ ", " ++ parent ++ ")"
  | implements owner interface => "Implements(" ++ owner ++ ", " ++ interface ++ ")"
  | fieldDeclared owner name type visibility =>
    "FieldDeclared(" ++ owner ++ ", " ++ name ++ ", " ++ type ++ ", " ++ visibility ++ ")"
  | imports owner imported => "Imports(" ++ owner ++ ", " ++ imported ++ ")"

/-- Hand facts to a sink one by one until it refuses one. The result holds the sink's last state
and what was refused. -/
def deliver {σ ε : Type} (accept : σ → Fact → Except ε σ) : σ → List Fact → σ × Option (Fact × ε)
  | sink, [] => (sink, none)
  | sink, f :: fs =>
    match accept sink f with
    | .ok sink' => deliver accept sink' fs
    | .error e => (sink, some (f, e))

/-- What is said of a fact that a sink refuses. -/
def refusalMessage (f : Fact) (reason : String) : String :=
  "Fact sink rejected " ++ f.describe ++ ": " ++ reason

def toJson : Fact → Json.Value
  | classDeclared name => record "class_declared" [("name", name)]
  | methodDeclared owner name visibility =>
    record "method_declared"
      ([("class", owner), ("name", name)] ++ visibility.toList.map ("visibility", ·))
  | methodCall owner caller callee =>
    record "method_call" [("class", owner), ("caller", caller), ("callee", callee)]
  | controlFlow owner method kind condition =>
    record "control_flow"
      [("class", owner), ("method", method), ("kind", kind), ("condition", condition)]
  | inherits owner parent => record "inherits" [("class", owner), ("parent", parent)]
  | implements owner interface => record "implements" [("class", owner), ("interface", interface)]
  | fieldDeclared owner name type visibility =>
    record "field_declared"
      [("class", owner), ("name", name), ("type", type), ("visibility", visibility)]
  | imports owner imported => record "imports" [("class", owner), ("imported", imported)]
where
  record (tag : String) (fields : List (String × String)) : Json.Value :=
    .object (("fact", .string tag) :: fields.map fun f => (f.1, .string f.2))

/-- A visibility may be absent or null. -/
def visibility? : Json.Value → Option (Option String)
  | .null => some none
  | .string s => some (some s)
  | _ => none

/-- The texts of the named fields of an object. -/
def texts? (v : Json.Value) (names : List String) : Option (List String) :=
  names.mapM fun name => (v.field? name).bind Json.Value.string?

/-- A field that may be missing but may not be repeated. -/
def optionalField? (name : String) : Json.Value → Option (Option Json.Value)
  | .object fields =>
    match fields.filter (·.1 == name) with
    | [] => some none
    | [f] => some (some f.2)
    | _ => none
  | _ => none

def ofFields? (tag : String) (v : Json.Value) : Option Fact :=
  match tag with
  | "class_declared" => do
    let [name] ← texts? v ["name"] | none
    pure (classDeclared name)
  | "method_declared" => do
    let [owner, name] ← texts? v ["class", "name"] | none
    let visibility ← visibility? ((← optionalField? "visibility" v).getD .null)
    pure (methodDeclared owner name visibility)
  | "method_call" => do
    let [owner, caller, callee] ← texts? v ["class", "caller", "callee"] | none
    pure (methodCall owner caller callee)
  | "control_flow" => do
    let [owner, method, kind, condition] ← texts? v ["class", "method", "kind", "condition"]
      | none
    pure (controlFlow owner method kind condition)
  | "inherits" => do
    let [owner, parent] ← texts? v ["class", "parent"] | none
    pure (inherits owner parent)
  | "implements" => do
    let [owner, interface] ← texts? v ["class", "interface"] | none
    pure (implements owner interface)
  | "field_declared" => do
    let [owner, name, type, visibility] ← texts? v ["class", "name", "type", "visibility"]
      | none
    pure (fieldDeclared owner name type visibility)
  | "imports" => do
    let [owner, imported] ← texts? v ["class", "imported"] | none
    pure (imports owner imported)
  | _ => none

/-- The field names of a kind of fact in the order in which a list gives their values. -/
def fieldNames? : String → Option (List String)
  | "class_declared" => some ["name"]
  | "method_declared" => some ["class", "name", "visibility"]
  | "method_call" => some ["class", "caller", "callee"]
  | "control_flow" => some ["class", "method", "kind", "condition"]
  | "inherits" => some ["class", "parent"]
  | "implements" => some ["class", "interface"]
  | "field_declared" => some ["class", "name", "type", "visibility"]
  | "imports" => some ["class", "imported"]
  | _ => none

/-- A fact is an object, or a list of its kind and the values of its fields. -/
def ofClear? : Json.Value → Option Fact
  | .object fields => do
    let tag ← (← Json.Value.field? "fact" (.object fields)).string?
    ofFields? tag (.object fields)
  | .array (tag :: values) => do
    let tag ← tag.string?
    let names ← fieldNames? tag
    if values.length ≤ names.length then ofFields? tag (.object (names.zip values)) else none
  | _ => none

/-- What is garbled is no fact, also where the fact does not ask for it. -/
def ofJson? (v : Json.Value) : Option Fact :=
  if v.isClear then ofClear? v else none

end Fact

end StructureGraph
