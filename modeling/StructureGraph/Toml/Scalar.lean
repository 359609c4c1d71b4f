import StructureGraph.Decimal.Reader
import StructureGraph.Toml.Basic
import StructureGraph.Toml.Quoted

namespace StructureGraph.Toml

open StructureGraph.Json (digitsValue hexDigit?)
open StructureGraph.Text (segmentsFrom)

/-- What such a word may be made of. -/
def isWordChar (c : Char) : Bool :=
  c.isAlphanum || c == '_' || c == '+' || c == '-' || c == '.' || c == ':'

/-- Digits with single underscores between them. -/
def isGroup (isDigit : Char → Bool) (cs : List Char) : Bool :=
  (segmentsFrom '_' [] cs).all fun s => !s.isEmpty && s.all isDigit

def plain (cs : List Char) : List Char := cs.filter (· != '_')

/-- A whole number without a sign, which does not begin with a zero unless it is zero. -/
def isWhole (cs : List Char) : Bool :=
  isGroup Char.isDigit cs && (cs.length == 1 || cs.head? != some '0')

/-- Integers have 64 bits. -/
def inRange (n : Int) : Option Int :=
  if -9223372036854775808 ≤ n ∧ n ≤ 9223372036854775807 then some n else none

def radixDigit? (radix : Nat) (c : Char) : Option Nat :=
  (hexDigit? c).filter (· < radix)

def radixInteger? (radix : Nat) (cs : List Char) : Option Int :=
  if isGroup (fun c => (radixDigit? radix c).isSome) cs then
    inRange ((plain cs).foldl (fun n c => radix * n + (radixDigit? radix c).getD 0) 0 : Nat)
  else none

def splitSign : List Char → Bool × List Char
  | '-' :: cs => (true, cs)
  | '+' :: cs => (false, cs)
  | cs => (false, cs)

def integer? (cs : List Char) : Option Int :=
  match cs with
  | '0' :: 'x' :: ds => radixInteger? 16 ds
  | '0' :: 'o' :: ds => radixInteger? 8 ds
  | '0' :: 'b' :: ds => radixInteger? 2 ds
  | cs =>
    let (negative, ds) := splitSign cs
    if isWhole ds then
      let n : Int := digitsValue (plain ds)
      inRange (if negative then -n else n)
    else none

def isExponent : List Char → Bool
  | [] => true
  | e :: cs => (e == 'e' || e == 'E') && isGroup Char.isDigit (splitSign cs).2

/-- A whole number with a fraction, an exponent, or both. -/
def isFloat (cs : List Char) : Bool :=
  let isDigit c := c.isDigit || c == '_'
  let ds := (splitSign cs).2
  let rest := ds.dropWhile isDigit
  isWhole (ds.takeWhile isDigit) &&
    match rest with
    | '.' :: fs => isGroup Char.isDigit (fs.takeWhile isDigit) && isExponent (fs.dropWhile isDigit)
    | [] => false
    | rest => isExponent rest

/-- Numbers too large are refused, though not negative ones. -/
def float? (cs : List Char) : Option Float :=
  let (negative, word) := splitSign cs
  if word = "inf".toList then some (if negative then -(1.0 / 0.0) else 1.0 / 0.0)
  else if word = "nan".toList then some (0.0 / 0.0)
  else if isFloat cs then
    (Decimal.float? (String.ofList (plain cs))).filter fun x => !(x == 1.0 / 0.0)
  else none

/-- The value of digits, all of which are there. -/
def number? (cs : List Char) : Option Nat :=
  if cs.all Char.isDigit then some (digitsValue cs) else none

def isLeapYear (y : Nat) : Bool := y % 4 == 0 && (y % 100 != 0 || y % 400 == 0)

def daysIn (year month : Nat) : Nat :=
  if month = 2 then if isLeapYear year then 29 else 28
  else if month = 4 ∨ month = 6 ∨ month = 9 ∨ month = 11 then 30
  else 31

def isDate : List Char → Bool
  | [a, b, c, d, '-', e, f, '-', g, h] =>
    match number? [a, b, c, d], number? [e, f], number? [g, h] with
    | some year, some month, some day =>
      decide (1 ≤ month ∧ month ≤ 12 ∧ 1 ≤ day ∧ day ≤ daysIn year month)
    | _, _, _ => false
  | _ => false

def isClock (hour minute : List Char) : Bool :=
  match number? hour, number? minute with
  | some h, some m => decide (h < 24 ∧ m < 60)
  | _, _ => false

def isOffset : List Char → Bool
  | [] => true
  | [z] => z == 'Z' || z == 'z'
  | [s, a, b, ':', c, d] => (s == '+' || s == '-') && isClock [a, b] [c, d]
  | _ => false

/-- What follows the seconds: a fraction, and an offset where one is allowed. -/
def isTimeEnd (offset : Bool) (cs : List Char) : Bool :=
  let rest :=
    match cs with
    | '.' :: ds =>
      if ds.head?.any Char.isDigit then ds.dropWhile Char.isDigit else cs
    | cs => cs
  if offset then isOffset rest else rest.isEmpty

def isTime (offset : Bool) : List Char → Bool
  | a :: b :: ':' :: c :: d :: ':' :: e :: f :: cs =>
    isClock [a, b] [c, d] && (number? [e, f]).any (· ≤ 60) && isTimeEnd offset cs
  | _ => false

/-- A date, a time, or both with a letter between them. -/
def isDateTime (cs : List Char) : Bool :=
  isDate cs || isTime false cs ||
    (isDate (cs.take 10) && ((cs.drop 10).head?.any fun c => c == 'T' || c == 't') &&
      isTime true (cs.drop 11))

def word? (cs : List Char) : Option Value :=
  if cs = "true".toList then some (.boolean true)
  else if cs = "false".toList then some (.boolean false)
  else if isDateTime cs then some .dateTime
  else
    match integer? cs with
    | some n => some (.integer n)
    | none => (float? cs).map .float

/-- Read a word. A time may follow its date behind a single blank. -/
def readWord (cs : List Char) : Option (Value × List Char) :=
  let word := cs.takeWhile isWordChar
  let rest := cs.dropWhile isWordChar
  let time :=
    match rest with
    | ' ' :: after => if isDate word then after.takeWhile isWordChar else []
    | _ => []
  if time.head?.any Char.isDigit then
    if isTime true time then some (.dateTime, rest.drop (time.length + 1)) else none
  else (word? word).map (·, rest)

end StructureGraph.Toml
