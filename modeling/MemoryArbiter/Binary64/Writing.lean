import MemoryArbiter.Binary64.Rounding

/-! # Writing numbers

`Binary64.shortest` writes the fewest digits that read back as the number, nearest to it among
those, never with an exponent.  `Binary64.fixed` writes a given number of decimal places.
-/

namespace MemoryArbiter.Binary64

def decimalDigits (n : Nat) : List Char := Nat.toDigits 10 n

/-- Decimal digits with a value of `0.d₁d₂… · 10 ^ point`. -/
structure Digits where
  digits : List Char
  point : Int
  deriving DecidableEq, Repr

/-- The reals that round to a finite number, in quarters of its unit: from `low` to `high` around
`value`, with the ends if `closed`. -/
structure Interval where
  low : Nat
  value : Nat
  high : Nat
  closed : Bool

/-- Below a power of two the neighbours are only half as far away. -/
def interval (mantissa exponent : Nat) : Interval where
  low := 4 * mantissa - (if mantissa = hiddenBit && exponent > 0 then 1 else 2)
  value := 4 * mantissa
  high := 4 * mantissa + 2
  closed := mantissa % 2 == 0

def Interval.holds (i : Interval) (num den : Nat) : Bool :=
  if i.closed then i.low * den ≤ num && num ≤ i.high * den
  else i.low * den < num && num < i.high * den

/-- The multiple of `num / den` nearest to the interval's value, of those next to it that lie in
the interval; of two that are equally near, the larger. -/
def Interval.pick (i : Interval) (num den : Nat) : Option Nat :=
  let below := i.value * den / num
  let above := below + 1
  match i.holds (below * num) den, i.holds (above * num) den with
  | true, true =>
    if i.value * den - below * num < above * num - i.value * den then some below else some above
  | true, false => some below
  | false, true => some above
  | false, false => none

def quarterUnit (exponent : Nat) : Nat × Nat := (twoPow exponent, twoPow 1076)

/-- Number of decimal places before the point of the value `num / den`; negative if the value
begins with zeros behind the point. -/
def pointOf (num den : Nat) : Int :=
  if den ≤ num then (decimalDigits (num / den)).length
  else
    let zeros := (decimalDigits (den / num)).length
    if num * tenPow zeros < den * 10 then 1 - zeros else 2 - zeros

/-- The first digit count, from `count` up, for which a grid point lies in the interval. -/
def searchDigits (i : Interval) (exponent : Nat) (point : Int) : Nat → Nat → Digits
  | 0, _ => ⟨['0'], 1⟩
  | fuel + 1, count =>
    let (unit, one) := quarterUnit exponent
    let grid : Int := point - count
    let num := if grid < 0 then one else tenPow grid.natAbs * one
    let den := if grid < 0 then unit * tenPow grid.natAbs else unit
    match i.pick num den with
    | some n =>
      let ds := decimalDigits n
      ⟨ds, grid + ds.length⟩
    | none => searchDigits i exponent point fuel (count + 1)

/-- The fewest digits that read back as the positive number. -/
def shortestDigits (mantissa exponent : Nat) : Digits :=
  let (unit, one) := quarterUnit exponent
  searchDigits (interval mantissa exponent) exponent (pointOf (4 * mantissa * unit) one) 18 1

def Digits.positional (d : Digits) : List Char :=
  let trimmed := (d.digits.reverse.dropWhile (· == '0')).reverse
  if d.point ≤ 0 then '0' :: '.' :: (List.replicate d.point.natAbs '0' ++ trimmed)
  else if trimmed.length ≤ d.point.natAbs then
    trimmed ++ List.replicate (d.point.natAbs - trimmed.length) '0'
  else trimmed.take d.point.natAbs ++ '.' :: trimmed.drop d.point.natAbs

def signText (negative : Bool) : String := if negative then "-" else ""

/-- The number in the fewest digits, without an exponent and without a point if it is whole. -/
def shortest : Binary64 → String
  | nan => "NaN"
  | infinity negative => signText negative ++ "inf"
  | finite negative mantissa exponent =>
    if mantissa = 0 then signText negative ++ "0"
    else
      signText negative ++ String.ofList (shortestDigits mantissa exponent).positional

def isWhole : Binary64 → Bool
  | finite _ mantissa exponent => units mantissa exponent % unitsPerOne == 0
  | _ => false

/-- The number with `places` decimal places, a half going to the even neighbour. -/
def fixed (places : Nat) : Binary64 → String
  | nan => "NaN"
  | infinity negative => signText negative ++ "inf"
  | finite negative mantissa exponent =>
    let n := roundHalfEven (units mantissa exponent * tenPow places) unitsPerOne
    let whole := decimalDigits (n / tenPow places)
    let fraction := decimalDigits (n % tenPow places)
    let padded := List.replicate (places - fraction.length) '0' ++ fraction
    signText negative ++ String.ofList (whole ++ '.' :: padded)

end MemoryArbiter.Binary64
