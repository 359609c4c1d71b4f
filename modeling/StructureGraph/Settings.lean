import StructureGraph.Glob.Reader
import StructureGraph.Ingestion
import StructureGraph.Java.Facts
import StructureGraph.Resolution.Significance
import StructureGraph.Text.Quoted
import StructureGraph.Toml.Reader

namespace StructureGraph

open Java (FactSelection)

structure Settings where
  /-- The share of the methods of each class that is dropped as insignificant. -/
  filterPercentage : Float := 0.5
  /-- The snapshot file of the graph. -/
  store : String := ".archgraph/graph.json"
  /-- How many classes a projection shows. -/
  limit : Nat := 10
  systemName : Option String := none
  keying : MethodKeying := .bareName
  standardPrefixes : List String := Resolution.standardPrefixes
  /-- Globs for files to leave out, relative to the input. -/
  exclude : List String := []
  extraction : FactSelection := {}

inductive SettingsError where
  | unreadable (path : String)
  | malformed (path : String)
  | environment (name value : String)
  | percentage (x : Float)
  | exclusion (pattern : String)

namespace SettingsError

def message : SettingsError → String
  | unreadable path => "Failed to read " ++ path
  | malformed path => "Invalid config file " ++ path
  | environment name value => "Invalid value for " ++ name ++ ": " ++ Text.quoted value
  | percentage x =>
    "filter_percentage must be within [0.0, 1.0], got " ++ Decimal.floatText x
  | exclusion pattern => "Invalid exclude pattern " ++ Text.quoted pattern

end SettingsError

namespace Settings

def default : Settings := {}

instance : Inhabited Settings := ⟨default⟩

open Toml (Value)

def float? : Value → Option Float
  | .float x => some x
  | .integer n => some (Float.ofInt n)
  | _ => none

def string? : Value → Option String
  | .string s => some s
  | _ => none

def strings? : Value → Option (List String)
  | .array items => items.mapM string?
  | _ => none

def nat? : Value → Option Nat
  | .integer (.ofNat n) => some n
  | _ => none

def keyingOfName? : String → Option MethodKeying
  | "bare_name" => some .bareName
  | "class_qualified" => some .classQualified
  | _ => none

/-- A keying is a string, or a table whose only entry has its name and nothing in it. -/
def keying? : Value → Option MethodKeying
  | .string s => keyingOfName? s
  | .table [(s, .table [])] => keyingOfName? s
  | _ => none

/-- The kinds of facts by name, in the order in which a list says which are wanted. -/
def factNames : List String :=
  ["methods", "method_calls", "class_fields", "inheritance", "imports",
   "interface_implementations", "control_flow", "only_public_methods",
   "omit_private_method_calls"]

def selectFact (s : FactSelection) (name : String) (b : Bool) : FactSelection :=
  match name with
  | "methods" => { s with methods := b }
  | "method_calls" => { s with methodCalls := b }
  | "class_fields" => { s with classFields := b }
  | "inheritance" => { s with inheritance := b }
  | "imports" => { s with imports := b }
  | "interface_implementations" => { s with interfaceImplementations := b }
  | "control_flow" => { s with controlFlow := b }
  | "only_public_methods" => { s with onlyPublicMethods := b }
  | "omit_private_method_calls" => { s with omitPrivateMethodCalls := b }
  | _ => s

/-- Entries of other names do not matter. -/
def addSelection (s : FactSelection) (entry : String × Value) : Option FactSelection :=
  if factNames.contains entry.1 then
    match entry.2 with
    | .boolean b => some (selectFact s entry.1 b)
    | _ => none
  else some s

def selection? : Value → Option FactSelection
  | .table entries => entries.foldlM addSelection {}
  | .array items => (factNames.zip items).foldlM addSelection {}
  | .dateTime => some {}
  | _ => none

/-- No entries but those of settings are allowed. -/
def addEntry (s : Settings) (entry : String × Value) : Option Settings :=
  match entry.1 with
  | "filter_percentage" => (float? entry.2).map fun x => { s with filterPercentage := x }
  | "store" => (string? entry.2).map fun path => { s with store := path }
  | "limit" => (nat? entry.2).map fun n => { s with limit := n }
  | "system_name" => (string? entry.2).map fun name => { s with systemName := some name }
  | "method_keying" => (keying? entry.2).map fun k => { s with keying := k }
  | "std_prefixes" => (strings? entry.2).map fun ps => { s with standardPrefixes := ps }
  | "exclude" => (strings? entry.2).map fun ps => { s with exclude := ps }
  | "extraction" => (selection? entry.2).map fun e => { s with extraction := e }
  | _ => none

def ofText? (text : String) : Option Settings :=
  (Toml.read? text).bind fun entries => entries.foldlM addEntry default

/-- The settings of a file. What the file does not say stays as it is by default. -/
def ofFile (files : Files) (path : String) : Except SettingsError Settings :=
  match files.text? path with
  | none => .error (.unreadable path)
  | some text =>
    match ofText? text with
    | some s => .ok s
    | none => .error (.malformed path)

/-- A whole number below `2^64`, perhaps with a plus. -/
def count? (text : String) : Option Nat :=
  let digits := ((Text.dropPrefix? "+" text).getD text).toList
  if !digits.isEmpty && digits.all Char.isDigit then
    (some (Json.digitsValue digits)).filter (· < UInt64.size)
  else none

/-- What a variable says, if it is set. -/
def setting? {α : Type} (lookup : String → Option String) (name : String)
    (read : String → Option α) : Except SettingsError (Option α) :=
  match lookup name with
  | none => .ok none
  | some value =>
    match read (Text.trim value) with
    | some a => .ok (some a)
    | none => .error (.environment name value)

def isBlankText (s : String) : Bool := Text.trim s == ""

/-- Variables of the environment win over a file. A blank store is as good as none, and a blank name
takes the name away. -/
def override (s : Settings) (lookup : String → Option String) : Except SettingsError Settings := do
  let percentage ← setting? lookup "ARCHGRAPH_FILTER_PERCENTAGE" Decimal.float?
  let store := (lookup "ARCHGRAPH_STORE").filter fun v => !isBlankText v
  let limit ← setting? lookup "ARCHGRAPH_LIMIT" count?
  let name :=
    match lookup "ARCHGRAPH_SYSTEM_NAME" with
    | some v => if isBlankText v then none else some v
    | none => s.systemName
  pure
    { s with
      filterPercentage := percentage.getD s.filterPercentage
      store := store.getD s.store
      limit := limit.getD s.limit
      systemName := name }

/-- The share that is dropped. -/
def share (s : Settings) : Except SettingsError Resolution.Share :=
  match Resolution.Share.ofFloat? s.filterPercentage with
  | some share => .ok share
  | none => .error (.percentage s.filterPercentage)

def exclusion (pattern : String) : Except SettingsError Glob :=
  (Glob.read false false pattern).mapError fun _ => .exclusion pattern

def exclusions (s : Settings) : Except SettingsError (List Glob) :=
  s.exclude.mapM exclusion

def validate (s : Settings) : Except SettingsError Unit := do
  let _ ← s.share
  let _ ← s.exclusions
  pure ()

def fileName : String := "archgraph.toml"

/-- The path of the working directory. -/
def workingPath (files : Files) : String :=
  "/" ++ Files.Path.joinSegments files.workingDirectory

/-- The directory of an input, which may be a file. -/
def directoryOf (files : Files) (input : String) : String :=
  if files.isDirectory input then input else (Files.Path.parent? input).getD ""

/-- The settings file beside the input, else the one in the working directory. -/
def discover? (files : Files) (input : Option String) : Option String :=
  let directories := (input.map (directoryOf files)).toList ++ [workingPath files]
  (directories.map fun d => Files.Path.join d fileName).find? files.isFile

/-- The settings in force, before they are validated. -/
def gather (files : Files) (lookup : String → Option String) (explicit input : Option String) :
    Except SettingsError Settings := do
  let s ←
    match explicit.or (discover? files input) with
    | some path => ofFile files path
    | none => pure default
  s.override lookup

def load (files : Files) (lookup : String → Option String) (explicit input : Option String) :
    Except SettingsError Settings := do
  let s ← gather files lookup explicit input
  s.validate
  pure s

end Settings

end StructureGraph
