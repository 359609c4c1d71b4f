namespace StructureGraph.Files

/-- Why a repository could not be cloned. -/
inductive CloneFault where
  | noDirectory
  | noGit
  | refused (output : String)
  deriving DecidableEq, Repr

/-- What the system makes of changes that the files allow. They may fail all the same, as on a full disk,
and a file that could not be written to its end is left with other bytes. -/
structure System where
  makesDirectory : List String → Bool
  opensFile : List String → Bool
  /-- What a file holds where these bytes cannot be added to it. -/
  writeFault? : List String → ByteArray → Option ByteArray
  /-- What a file holds where its content cannot be made to last. -/
  syncFault? : List String → Option ByteArray
  movesFile : List String → List String → Bool
  /-- The directory in which a repository lies once it is cloned. -/
  clone : String → Except CloneFault String

namespace System

/-- All changes are made, and nothing can be cloned. -/
def reliable : System where
  makesDirectory _ := true
  opensFile _ := true
  writeFault? _ _ := none
  syncFault? _ := none
  movesFile _ _ := true
  clone _ := .error .noGit

instance : Inhabited System := ⟨reliable⟩

end System

end StructureGraph.Files
