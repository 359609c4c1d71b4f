import StructureGraph.CommandLine.Argument
import StructureGraph.CommandLine.Values

namespace StructureGraph.CommandLine

/-- What may be said at a level. -/
structure Level where
  options : List OptionName
  commands : List String
  takesInput : Bool
  deriving DecidableEq, Repr

namespace Level

def long? (l : Level) (name : String) : Option OptionName :=
  l.options.find? (·.long == name)

def short? (l : Level) (letter : Char) : Option OptionName :=
  l.options.find? (·.letter? == some letter)

end Level

/-- What was read of a level. -/
structure Progress where
  values : Values := .none
  /-- The last option if its value stands in a word of its own, and that word if it was read. -/
  unsettled : Option (OptionName × Option String) := none
  /-- Whether two dashes were read. -/
  wordsOnly : Bool := false

namespace Progress

def start : Progress := {}

/-- Whether the next word is the value of an option. -/
def wantsValue (p : Progress) : Option OptionName :=
  match p.unsettled with
  | some (name, none) => if p.wordsOnly then none else some name
  | _ => none

/-- Look at the value of the last option. -/
def settle (p : Progress) : Except Refusal Values :=
  match p.unsettled with
  | none => .ok p.values
  | some (_, none) => .error .missingValue
  | some (name, some text) => p.values.give name text

/-- Go on with more values. -/
def withValues (p : Progress) (v : Values) : Progress :=
  { p with values := v, unsettled := none }

/-- An option with the value that was said along with it. -/
def give (p : Progress) (name : OptionName) (text : String) : Except Refusal Progress := do
  let v ← p.settle
  p.withValues <$> v.give name text

/-- An option whose value is still to come. -/
def await (p : Progress) (name : OptionName) : Except Refusal Progress := do
  let v ← p.settle
  pure { p.withValues v with unsettled := some (name, none) }

def readLong (l : Level) (p : Progress) (name : String) (value : Option String) :
    Except Refusal Progress :=
  match l.long? name with
  | none => .error .unknownArgument
  | some o =>
    match o.takesValue, value with
    | true, some text => p.give o text
    | true, none => p.await o
    | false, some _ => .error .needlessValue
    | false, none => p.give o ""

/-- Letters after an option with a value are its value, perhaps after an equals sign. -/
def readShort (l : Level) (p : Progress) : List Char → Except Refusal Progress
  | [] => .ok p
  | letter :: rest =>
    match l.short? letter with
    | none => .error .unknownArgument
    | some o =>
      if o.takesValue then
        match rest with
        | [] => p.await o
        | '=' :: value => p.give o (String.ofList value)
        | value => p.give o (String.ofList value)
      else do
        let p ← p.give o ""
        readShort l p rest

/-- A word that is no value. One level takes a single input, the other none. -/
def readWord (l : Level) (p : Progress) (text : String) : Except Refusal Progress :=
  if l.takesInput && p.values.input.isNone then do
    let v ← p.settle
    pure (p.withValues { v with input := some (.ofText text) })
  else if l.commands.isEmpty || (p.wordsOnly && l.commands.contains text) then
    .error .unknownArgument
  else .error .unknownCommand

/-- A level up to a command, with the command and what follows it. -/
def read (l : Level) (p : Progress) :
    List String → Except Refusal (Progress × Option (String × List String))
  | [] => .ok (p, none)
  | text :: rest =>
    if p.wordsOnly then do
      let p ← p.readWord l text
      read l p rest
    else
      match Argument.ofText text with
      | .separator => read l { p with wordsOnly := true } rest
      | .long name value => do
        let p ← p.readLong l name value
        read l p rest
      | .short letters => do
        let p ← p.readShort l letters
        read l p rest
      | .word text =>
        match p.wantsValue with
        | some name => read l { p with unsettled := some (name, some text) } rest
        | none =>
          if l.commands.contains text then .ok (p, some (text, rest))
          else do
            let p ← p.readWord l text
            read l p rest

end Progress

end StructureGraph.CommandLine
