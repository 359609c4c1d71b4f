import StructureGraph.Files.Entry
import StructureGraph.Files.Path
import StructureGraph.Files.System

namespace StructureGraph

open StructureGraph.Text (segments)

/-- The files that a program sees. What may fail half-way returns the files as they are then, and whether
all went well. -/
structure Files where
  root : Files.Entry
  /-- The names on the way from the root to the working directory. -/
  workingDirectory : List String
  system : Files.System
  deriving Inhabited

namespace Files

open StructureGraph.Files.Path (Step)

/-- Nothing but an empty working directory. -/
def empty (workingDirectory : List String) : Files :=
  ⟨workingDirectory.foldr (fun n e => .directory [(n, e)]) (.directory []), workingDirectory, .reliable⟩

def isDirectoryAt (f : Files) (place : List String) : Bool :=
  (f.root.descend? place).any Entry.isDirectory

/-- Follow one segment of a path, which is possible from directories only. The root is its own
parent. -/
def enter (f : Files) (place : List String) (segment : String) : Option (List String) :=
  if f.isDirectoryAt place then
    some (if segment = "" ∨ segment = "." then place
      else if segment = ".." then place.dropLast
      else place ++ [segment])
  else none

/-- The place that a path leads to. What lies there need not exist. -/
def place? (f : Files) (path : String) : Option (List String) :=
  if path = "" then none
  else if Path.isAbsolute path then ((segments '/' path).drop 1).foldlM f.enter []
  else (segments '/' path).foldlM f.enter f.workingDirectory

def entry? (f : Files) (path : String) : Option Entry :=
  (f.place? path).bind f.root.descend?

def «exists» (f : Files) (path : String) : Bool := (f.entry? path).isSome

def isFile (f : Files) (path : String) : Bool := (f.entry? path).any Entry.isFile

def isDirectory (f : Files) (path : String) : Bool := (f.entry? path).any Entry.isDirectory

def bytes? (f : Files) (path : String) : Option ByteArray :=
  match f.entry? path with
  | some (.file bytes) => some bytes
  | _ => none

/-- The content of a file, if it is text. -/
def text? (f : Files) (path : String) : Option String :=
  (f.bytes? path).bind String.fromUTF8?

/-- Make one step of a path a directory, where there is nothing yet. -/
def makeStep (f : Files) (place : List String) : Step → Option (Files × List String)
  | .root => some (f, [])
  | .here => if f.isDirectoryAt place then some (f, place) else none
  | .up => if f.isDirectoryAt place then some (f, place.dropLast) else none
  | .name n =>
    let there := place ++ [n]
    if f.isDirectoryAt there then some (f, there)
    else if (f.root.descend? there).isSome || !f.isDirectoryAt place then none
    else if !f.system.makesDirectory there then none
    else some ({ f with root := f.root.put there (.directory []) }, there)

def makeSteps (f : Files) (place : List String) : List Step → Files × Bool
  | [] => (f, true)
  | s :: ss =>
    match f.makeStep place s with
    | some (f', place') => f'.makeSteps place' ss
    | none => (f, false)

/-- Make a directory and those above it. -/
def createDirectories (f : Files) (path : String) : Files × Bool :=
  f.makeSteps f.workingDirectory (Path.steps path)

/-- Put a file at the end of a path. Its directory has to be there. -/
def putFile (f : Files) (path : String) (bytes : ByteArray) : Files × Bool :=
  match f.place? path with
  | some place =>
    if place = [] || f.isDirectoryAt place then (f, false)
    else if f.isDirectoryAt place.dropLast then
      ({ f with root := f.root.put place (.file bytes) }, true)
    else (f, false)
  | none => (f, false)

/-- Make an empty file, or empty the one that is there. -/
def createFile (f : Files) (path : String) : Files × Bool :=
  if (f.place? path).any f.system.opensFile then f.putFile path .empty else (f, false)

/-- Add bytes to the end of a file. -/
def appendBytes (f : Files) (path : String) (bytes : ByteArray) : Files × Bool :=
  match f.place? path, f.bytes? path with
  | some place, some before =>
    match f.system.writeFault? place bytes with
    | none => f.putFile path (before ++ bytes)
    | some left => ((f.putFile path left).1, false)
  | _, _ => (f, false)

/-- Make the content of a file last. -/
def syncFile (f : Files) (path : String) : Files × Bool :=
  match (f.place? path).bind f.system.syncFault? with
  | none => (f, true)
  | some left => ((f.putFile path left).1, false)

/-- Move a file to another place, where it replaces a file. -/
def moveFile (f : Files) (source target : String) : Files × Bool :=
  match f.bytes? source, f.place? source, f.place? target with
  | some bytes, some place, some there =>
    if f.system.movesFile place there then
      let (moved, done) := { f with root := f.root.remove place }.putFile target bytes
      if done then (moved, true) else (f, false)
    else (f, false)
  | _, _, _ => (f, false)

/-- Make changes one after the other, up to the first that fails. -/
def inTurn (f : Files) : List (Files → Files × Bool) → Files × Bool
  | [] => (f, true)
  | change :: changes =>
    match change f with
    | (f', true) => f'.inTurn changes
    | (f', false) => (f', false)

/-- Write a file anew. -/
def writeBytes (f : Files) (path : String) (bytes : ByteArray) : Files × Bool :=
  f.inTurn [(·.createFile path), (·.appendBytes path bytes)]

def writeText (f : Files) (path text : String) : Files × Bool :=
  f.writeBytes path text.toUTF8

end Files

end StructureGraph
