import StructureGraph.Decimal.Reader
import StructureGraph.Input.Location
import StructureGraph.Settings

namespace StructureGraph.CommandLine

/-- Why a command line is not carried out. The first two are wishes, the others faults. -/
inductive Refusal where
  | helpWanted
  | versionWanted
  | nothingSaid
  | missingCommand
  | unknownCommand
  | unknownArgument
  | missingInput
  | missingValue
  | badValue
  | needlessValue
  /-- An option is given twice, or two of them exclude each other. -/
  | conflict
  deriving DecidableEq, Repr

inductive OptionName where
  | config
  | store
  | filterPercentage
  | limit
  | all
  | output
  | help
  | version
  deriving DecidableEq, Repr

namespace OptionName

def long : OptionName → String
  | config => "config"
  | store => "store"
  | filterPercentage => "filter-percentage"
  | limit => "limit"
  | all => "all"
  | output => "output"
  | help => "help"
  | version => "version"

def letter? : OptionName → Option Char
  | output => some 'o'
  | help => some 'h'
  | version => some 'V'
  | _ => none

def takesValue : OptionName → Bool
  | all | help | version => false
  | _ => true

end OptionName

/-- What is given so far. -/
structure Values where
  config : Option String := none
  store : Option String := none
  filterPercentage : Option Float := none
  limit : Option Nat := none
  all : Bool := false
  output : Option String := none
  input : Option Input.Location := none

namespace Values

def none : Values := {}

def has (v : Values) : OptionName → Bool
  | .config => v.config.isSome
  | .store => v.store.isSome
  | .filterPercentage => v.filterPercentage.isSome
  | .limit => v.limit.isSome
  | .all => v.all
  | .output => v.output.isSome
  | .help | .version => false

def isEmpty (v : Values) : Bool :=
  !([OptionName.config, .store, .filterPercentage, .limit, .all, .output].any v.has) &&
    v.input.isNone

/-- The path of a file is not empty. -/
def filePath (text : String) : Except Refusal String :=
  if text.isEmpty then .error .missingValue else .ok text

def ofRead {α : Type} : Option α → Except Refusal α
  | some a => .ok a
  | Option.none => .error .badValue

/-- Give an option that is not given yet. -/
def put (v : Values) (name : OptionName) (text : String) : Except Refusal Values :=
  match name with
  | .config => (filePath text).map fun path => { v with config := some path }
  | .store => (filePath text).map fun path => { v with store := some path }
  | .output => (filePath text).map fun path => { v with output := some path }
  | .filterPercentage =>
    (ofRead (Decimal.float? text)).map fun x => { v with filterPercentage := some x }
  | .limit => (ofRead (Settings.count? text)).map fun n => { v with limit := some n }
  | .all => .ok { v with all := true }
  | .help => .error .helpWanted
  | .version => .error .versionWanted

def give (v : Values) (name : OptionName) (text : String) : Except Refusal Values :=
  if v.has name then .error .conflict else v.put name text

/-- Values that win over others. -/
def orElse (v w : Values) : Values where
  config := v.config.or w.config
  store := v.store.or w.store
  filterPercentage := v.filterPercentage.or w.filterPercentage
  limit := v.limit.or w.limit
  all := v.all || w.all
  output := v.output.or w.output
  input := v.input.or w.input

end Values

end StructureGraph.CommandLine
