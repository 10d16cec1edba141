import MemoryArbiter.Binary64.Basic

/-! # Rounding to 64 bits

`Binary64.ofRatio` is the number nearest to a quotient, a tie going to the even mantissa.  The
arithmetic of the library is exact arithmetic on naturals followed by this one rounding.
-/

namespace MemoryArbiter.Binary64

/-- The integer nearest to `num / den`, a half going to the even neighbour. -/
def roundHalfEven (num den : Nat) : Nat :=
  let q := num / den
  let r := num % den
  if 2 * r < den then q
  else if den < 2 * r then q + 1
  else q + q % 2

def bitLength (n : Nat) : Nat := if n = 0 then 0 else n.log2 + 1

def ofRatio (negative : Bool) (num den : Nat) : Binary64 :=
  let scaled := num * twoPow 1074
  let exponent := bitLength (scaled / den) - 53
  let mantissa := roundHalfEven scaled (den * twoPow exponent)
  let (mantissa, exponent) :=
    if mantissa = 2 * hiddenBit then (hiddenBit, exponent + 1) else (mantissa, exponent)
  if exponent > maxExponent then infinity negative else finite negative mantissa exponent

def ofInt (i : Int) : Binary64 := ofRatio (i < 0) i.natAbs 1

/-- `2 ^ 1074`: a number of `n` units has the value `n / unitsPerOne`. -/
def unitsPerOne : Nat := twoPow 1074

def magnitude? : Binary64 → Option Nat
  | finite _ mantissa exponent => some (units mantissa exponent)
  | _ => none

end MemoryArbiter.Binary64
