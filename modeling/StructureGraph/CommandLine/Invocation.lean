import StructureGraph.CommandLine.Level
import StructureGraph.Projection

namespace StructureGraph.CommandLine

open Input (Location)

/-- How much of a structure is shown, and where it is written. -/
structure View where
  limit : Option Nat
  all : Bool
  output : Option String
  deriving DecidableEq, Repr

/-- Without a wish the usual number of classes is shown. -/
def View.mode (v : View) (usual : Nat) : ProjectionMode :=
  if v.all then .all else .mostSignificant (v.limit.getD usual)

inductive Command where
  | build (input : Location) (view : View)
  | analyze (input : Location)
  | project (view : View)
  | reset
  | dump
  deriving DecidableEq, Repr

namespace Command

def name : Command → String
  | build _ _ => "build"
  | analyze _ => "analyze"
  | project _ => "project"
  | reset => "reset"
  | dump => "dump"

def input? : Command → Option Location
  | build input _ | analyze input => some input
  | _ => none

def view? : Command → Option View
  | build _ view | project view => some view
  | _ => none

end Command

structure Invocation where
  command : Command
  config : Option String
  store : Option String
  filterPercentage : Option Float

/-- These options stand before a command or after it. -/
def globalOptions : List OptionName := [.config, .store, .filterPercentage, .help]

def viewOptions : List OptionName := [.limit, .all, .output]

def commandNames : List String := ["build", "analyze", "project", "reset", "dump"]

/-- What stands before the command. -/
def outerLevel : Level := ⟨.version :: globalOptions, "help" :: commandNames, false⟩

/-- What stands after a command. -/
def innerLevel : String → Level
  | "build" => ⟨globalOptions ++ viewOptions, [], true⟩
  | "analyze" => ⟨globalOptions, [], true⟩
  | "project" => ⟨globalOptions ++ viewOptions, [], false⟩
  | _ => ⟨globalOptions, [], false⟩

/-- Help is given on the program, on a command, and on help itself. -/
def helpOn : List String → Refusal
  | [] => .helpWanted
  | [topic] => if outerLevel.commands.contains topic then .helpWanted else .unknownCommand
  | _ => .unknownCommand

def viewOf (v : Values) : View := ⟨v.limit, v.all, v.output⟩

def inputOf (v : Values) : Except Refusal Location :=
  match v.input with
  | some input => .ok input
  | none => .error .missingInput

def commandOf (name : String) (v : Values) : Except Refusal Command :=
  match name with
  | "build" => (inputOf v).map (.build · (viewOf v))
  | "analyze" => (inputOf v).map .analyze
  | "project" => .ok (.project (viewOf v))
  | "reset" => .ok .reset
  | "dump" => .ok .dump
  | _ => .error .unknownCommand

/-- The values after a command. All classes and a number of them cannot both be wanted. -/
def readInner (name : String) (arguments : List String) : Except Refusal (Command × Values) := do
  let (p, _) ← Progress.start.read (innerLevel name) arguments
  let v ← p.settle
  if v.all && v.limit.isSome then throw .conflict
  let command ← commandOf name v
  pure (command, v)

/-- Options after the command win over those before it. -/
def Invocation.ofArguments (arguments : List String) : Except Refusal Invocation := do
  let (p, found) ← Progress.start.read outerLevel arguments
  match found with
  | some ("help", topics) => throw (helpOn topics)
  | some (name, rest) =>
    let (command, inner) ← readInner name rest
    let outer ← p.settle
    let v := inner.orElse outer
    pure ⟨command, v.config, v.store, v.filterPercentage⟩
  | none =>
    let v ← p.settle
    throw (if v.isEmpty then .nothingSaid else .missingCommand)

end StructureGraph.CommandLine
