import StructureGraph.Resolution.Inquiry
import StructureGraph.Resolution.Sources

namespace StructureGraph.Resolution

open StructureGraph.Java
open StructureGraph.Text (segments)

/-- The units of files. Paths that mean the same are one. -/
abbrev Units := Std.HashMap (List Files.Path.Step) (Option CompilationUnit)

/-- The unit in a file, which is read if it was not asked for before. -/
def Units.load (files : Files) (path : String) (units : Units) : Option CompilationUnit × Units :=
  match units[Files.Path.steps path]? with
  | some unit => (unit, units)
  | none =>
    let unit := loadUnit? files path
    (unit, units.insert (Files.Path.steps path) unit)

/-- The first type found where so many names say its file. -/
def Units.findType (files : Files) (directory : String) (name : List String) :
    List Nat → Units → Option FoundType × Units
  | [], units => (none, units)
  | n :: ns, units =>
    let (unit, units) := units.load files (typeFile directory (name.take n))
    match unit.bind (typeOf? name n) with
    | some t => (some t, units)
    | none => Units.findType files directory name ns units

inductive Context where
  | directory (path : String) (units : Units)
  | builtin

namespace Context

/-- An origin that was not asked yet. -/
def ofOrigin : Origin → Context
  | .directory path => directory path ∅
  | .builtin => builtin

def findType (files : Files) (name : String) : Context → Option FoundType × Context
  | directory path units =>
    let names := segments '.' name
    let (t, units) := Units.findType files path names (fileLengths names) units
    (t, directory path units)
  | builtin => ((BuiltinType.ofName? name).map .builtin, builtin)

/-- Ask one after the other until one knows the type. -/
def findAmong (files : Files) (name : String) : List Context → Option FoundType × List Context
  | [] => (none, [])
  | c :: cs =>
    match c.findType files name with
    | (some t, c) => (some t, c :: cs)
    | (none, c) =>
      let (t, cs) := findAmong files name cs
      (t, c :: cs)

end Context

structure Resolver where
  contexts : List Context
  types : Inquiry.Memory FoundType

namespace Resolver

def ofOrigins (origins : List Origin) : Resolver := ⟨origins.map .ofOrigin, .empty⟩

/-- A resolver that was not used yet. -/
def forScope (directories : List String) : Resolver := ofOrigins (originsOf directories)

def findType (files : Files) (name : String) (r : Resolver) : Option FoundType × Resolver :=
  match r.types[name]? with
  | some t => (t, r)
  | none =>
    let (t, contexts) := Context.findAmong files name r.contexts
    (t, ⟨contexts, r.types.insert name t⟩)

/-- Answer all that an inquiry asks. -/
def pursue {α : Type} (files : Files) : Inquiry FoundType α → Resolver → α × Resolver
  | .done a, r => (a, r)
  | .ask name next, r =>
    let (t, r) := r.findType files name
    pursue files (next t) r

end Resolver

end StructureGraph.Resolution
