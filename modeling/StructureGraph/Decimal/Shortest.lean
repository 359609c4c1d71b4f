
namespace StructureGraph

/-- The number `digits * 10 ^ exponent`. -/
structure Decimal where
  digits : Nat
  exponent : Int
  deriving DecidableEq, Repr

namespace Decimal

/-- The number `mantissa * 2 ^ exponent`. -/
structure Binary where
  mantissa : Nat
  exponent : Int
  deriving DecidableEq, Repr

namespace Binary

def minExponent : Int := -1074

/-- The least mantissa of a number that is not near zero. -/
def leastMantissa : Nat := 0x10000000000000

/-- A number of 64 bits without its sign, if it is finite. -/
def ofBits? (bits : Nat) : Option Binary :=
  let fraction := bits % leastMantissa
  match bits / leastMantissa % 2048 with
  | 0 => some ⟨fraction, minExponent⟩
  | 2047 => none
  | n => some ⟨leastMantissa + fraction, minExponent + (n - 1 : Nat)⟩

def quarters (b : Binary) : Nat := 4 * b.mantissa

/-- The least real that rounds to the number. Powers of two are nearer to the number below. -/
def low (b : Binary) : Nat :=
  if b.mantissa = leastMantissa ∧ b.exponent ≠ minExponent then b.quarters - 1 else b.quarters - 2

def high (b : Binary) : Nat := b.quarters + 2

/-- The ends of the interval round to the number only if its mantissa is even. -/
def contains (b : Binary) (num den : Nat) : Bool :=
  if b.mantissa % 2 = 0 then decide (b.low * den ≤ num) && decide (num ≤ b.high * den)
  else decide (b.low * den < num) && decide (num < b.high * den)

/-- The step `10^k` in quarters, as a fraction. -/
def gridStep (b : Binary) (k : Int) : Nat × Nat :=
  let e := b.exponent - 2
  (Nat.pow 10 k.toNat * Nat.pow 2 (-e).toNat, Nat.pow 10 (-k).toNat * Nat.pow 2 e.toNat)

/-- The multiple of `10^k` nearest to the number, if one rounds to it. -/
def onGrid? (b : Binary) (k : Int) : Option Nat :=
  let (num, den) := b.gridStep k
  let below := b.quarters * den / num
  let above := below + 1
  let belowFits := b.contains (below * num) den
  let aboveFits := b.contains (above * num) den
  let nearer := decide (above * num - b.quarters * den ≤ b.quarters * den - below * num)
  if aboveFits && (!belowFits || nearer) then some above
  else if belowFits then some below
  else none

/-- Try ever finer grids. -/
def search (b : Binary) : Nat → Int → Decimal
  | 0, k => ⟨0, k⟩
  | n + 1, k =>
    match b.onGrid? k with
    | some d => ⟨d, k⟩
    | none => b.search n (k - 1)

/-- Powers of ten from this one on are greater than the number. -/
def magnitude (b : Binary) : Int :=
  ((b.mantissa.log2 + 1 : Nat) + b.exponent) * 30103 / 100000 + 2

/-- Seventeen digits are enough for every number. -/
def shortest (b : Binary) : Decimal :=
  if b.mantissa = 0 then ⟨0, 0⟩ else b.search 24 b.magnitude

end Binary

/-- The digits of a decimal without an exponent. -/
def positional (d : Decimal) : String :=
  let digits := toString d.digits
  if 0 ≤ d.exponent then
    if d.digits = 0 then "0" else digits ++ String.ofList (List.replicate d.exponent.toNat '0')
  else
    let places := (-d.exponent).toNat
    let padded := List.replicate (places + 1 - digits.length) '0' ++ digits.toList
    let whole := padded.take (padded.length - places)
    String.ofList (whole ++ '.' :: padded.drop (padded.length - places))

/-- The bit that only negative numbers have. -/
def signBit : Nat := 0x8000000000000000

/-- A number in as few digits as read back, never with an exponent. -/
def floatText (x : Float) : String :=
  let bits := x.toBits.toNat
  let negative := decide (signBit ≤ bits)
  let sign := if negative then "-" else ""
  match Binary.ofBits? bits with
  | some b => sign ++ b.shortest.positional
  | none => if bits % Binary.leastMantissa = 0 then sign ++ "inf" else "NaN"

end Decimal

end StructureGraph
