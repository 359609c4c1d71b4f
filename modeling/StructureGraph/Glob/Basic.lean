
namespace StructureGraph

inductive Glob.Token where
  | literal (c : Char)
  /-- Any byte. -/
  | any
  /-- Any number of bytes. -/
  | many
  /-- Nothing or any directories, at the beginning. -/
  | anyDirectories
  /-- A slash and all that follows, at the end. -/
  | anyBelow
  /-- A slash, or directories between two of them. -/
  | anyBetween
  | oneOf (negated : Bool) (ranges : List (Char × Char))
  | alternatives (branches : List (List Glob.Token))
  deriving Repr

structure Glob where
  tokens : List Glob.Token
  /-- Slashes are matched by slashes only. -/
  literalSlash : Bool
  deriving Repr

namespace Glob

abbrev Bytes := List UInt8

def slash : UInt8 := 47

def bytesOf (c : Char) : Bytes := (String.singleton c).toUTF8.data.toList

/-- Leave out rests that were there before. -/
def distinct (rests : List Bytes) : List Bytes :=
  rests.foldl (fun seen r => if seen.any (·.length == r.length) then seen else seen ++ [r]) []

/-- The rests behind bytes of a kind, as many as wanted. -/
def behindMany (p : UInt8 → Bool) : Bytes → List Bytes
  | [] => [[]]
  | b :: bs => (b :: bs) :: if p b then behindMany p bs else []

/-- The rests behind each of the slashes. -/
def behindSlashes : Bytes → List Bytes
  | [] => []
  | b :: bs => if b == slash then bs :: behindSlashes bs else behindSlashes bs

def behindOne (p : UInt8 → Bool) : Bytes → List Bytes
  | [] => []
  | b :: bs => if p b then [bs] else []

def behindLiteral (c : Char) (bs : Bytes) : List Bytes :=
  ((bytesOf c).isPrefixOf? bs).toList

/-- A range of characters as ranges of bytes: the range goes from the last byte of one character to
the first byte of the other, and their other bytes are in it one by one. -/
def byteRanges (range : Char × Char) : List (UInt8 × UInt8) :=
  let low := bytesOf range.1
  let high := bytesOf range.2
  if range.1 = range.2 then low.map fun b => (b, b)
  else
    low.dropLast.map (fun b => (b, b)) ++ [(low.getLastD 0, high.headD 0)] ++
      (high.drop 1).map fun b => (b, b)

def inRanges (ranges : List (Char × Char)) (b : UInt8) : Bool :=
  (ranges.flatMap byteRanges).any fun r => r.1 ≤ b && b ≤ r.2

/-- What a star or a question mark stands for. -/
def isFree (literalSlash : Bool) (b : UInt8) : Bool := !(literalSlash && b == slash)

mutual

/-- Nothing is said by alternatives of which all are empty. -/
def isVoid : Token → Bool
  | .alternatives branches => areAllVoid branches
  | _ => false

def isVoidBranch : List Token → Bool
  | [] => true
  | t :: ts => isVoid t && isVoidBranch ts

def areAllVoid : List (List Token) → Bool
  | [] => true
  | b :: bs => isVoidBranch b && areAllVoid bs

end

mutual

/-- The rests behind a token. -/
def behind (literalSlash : Bool) : Token → Bytes → List Bytes
  | .literal c, bs => behindLiteral c bs
  | .any, bs => behindOne (isFree literalSlash) bs
  | .many, bs => behindMany (isFree literalSlash) bs
  | .anyDirectories, bs => bs :: behindSlashes bs
  | .anyBelow, bs => (behindOne (· == slash) bs).flatMap (behindMany fun _ => true)
  | .anyBetween, bs => (behindOne (· == slash) bs).flatMap fun rest => rest :: behindSlashes rest
  | .oneOf negated ranges, bs => behindOne (fun b => inRanges ranges b != negated) bs
  | .alternatives branches, bs =>
    if areAllVoid branches then [bs] else behindAny literalSlash branches bs

/-- The rests behind tokens, for each of some rests in front of them. -/
def behindAll (literalSlash : Bool) : List Token → List Bytes → List Bytes
  | [], rests => rests
  | t :: ts, rests =>
    behindAll literalSlash ts (distinct (rests.flatMap (behind literalSlash t)))

/-- The rests behind one of several branches; empty ones do not count. -/
def behindAny (literalSlash : Bool) : List (List Token) → Bytes → List Bytes
  | [], _ => []
  | b :: branches, bs =>
    (if isVoidBranch b then [] else behindAll literalSlash b [bs]) ++
      behindAny literalSlash branches bs

end

/-- A path is matched if it can be used up. Two stars alone match everything. -/
def «matches» (g : Glob) (path : String) : Bool :=
  match g.tokens with
  | [.anyDirectories] => true
  | ts => (behindAll g.literalSlash ts [path.toUTF8.data.toList]).any List.isEmpty

end Glob

end StructureGraph
