import StructureGraph.Json.Basic
import StructureGraph.Text.Segments

namespace StructureGraph.Decimal

/-- The digits at the front and the rest. -/
def takeDigits (cs : List Char) : List Char × List Char :=
  (cs.takeWhile Char.isDigit, cs.dropWhile Char.isDigit)

/-- The number `10^exponent` times that of the digits. Numbers far out of the range of floating
point are infinite or zero. -/
def scaled (digits : List Char) (exponent : Int) : Float :=
  let significant := digits.dropWhile (· == '0')
  let magnitude := (significant.length : Int) + exponent
  if significant = [] ∨ magnitude < -400 then 0.0
  else if 400 < magnitude then 1.0 / 0.0
  else
    let n := Json.digitsValue significant
    if 0 ≤ exponent then Float.ofScientific n false exponent.toNat
    else Float.ofScientific n true (-exponent).toNat

/-- Read an exponent up to the end. No exponent is zero. -/
def exponent? : List Char → Option Int
  | [] => some 0
  | e :: cs =>
    if e == 'e' || e == 'E' then
      match cs with
      | '+' :: ds => digits? ds
      | '-' :: ds => (digits? ds).map (- ·)
      | ds => digits? ds
    else none
where
  digits? (ds : List Char) : Option Int :=
    if !ds.isEmpty && ds.all Char.isDigit then some (Json.digitsValue ds) else none

def unsigned? (cs : List Char) : Option Float :=
  let word := String.ofList (cs.map Char.toLower)
  if word = "inf" ∨ word = "infinity" then some (1.0 / 0.0)
  else if word = "nan" then some (0.0 / 0.0)
  else do
    let (whole, rest) := takeDigits cs
    let (fraction, rest) :=
      match rest with
      | '.' :: rest => takeDigits rest
      | rest => ([], rest)
    if whole = [] ∧ fraction = [] then none
    else
      let e ← exponent? rest
      pure (scaled (whole ++ fraction) (e - fraction.length))

def float? (text : String) : Option Float :=
  match text.toList with
  | '-' :: cs => (unsigned? cs).map (- ·)
  | '+' :: cs => unsigned? cs
  | cs => unsigned? cs

end StructureGraph.Decimal
