/-! # Binary floating-point numbers of 64 bits

A finite number is `mantissa · 2 ^ (exponent - 1074)` with a mantissa below `2 ^ 53`; below
`2 ^ 52` only at exponent 0.  Signs of zero are kept, one NaN stands for all.
-/

namespace MemoryArbiter

inductive Binary64
  | nan
  | infinity (negative : Bool)
  | finite (negative : Bool) (mantissa exponent : Nat)
  deriving DecidableEq, Repr, Inhabited

namespace Binary64

def zero : Binary64 := finite false 0 0

def twoPow (n : Nat) : Nat := Nat.pow 2 n

def tenPow (n : Nat) : Nat := Nat.pow 10 n

/-- `2 ^ 52`, the least mantissa of a number above the least exponent. -/
def hiddenBit : Nat := twoPow 52

/-- The exponent of the largest finite numbers. -/
def maxExponent : Nat := 2045

/-- The word that stores a number; `none` for NaN, which many words store. -/
def toBits? : Binary64 → Option Nat
  | nan => none
  | infinity negative => some (negative.toNat * twoPow 63 + 2047 * hiddenBit)
  | finite negative mantissa exponent =>
    let magnitude :=
      if mantissa < hiddenBit then mantissa
      else (exponent + 1) * hiddenBit + (mantissa - hiddenBit)
    some (negative.toNat * twoPow 63 + magnitude)

def units (mantissa exponent : Nat) : Nat := mantissa * twoPow exponent

/-- A finite number in units of the least positive one, with its sign. -/
def signedUnits (negative : Bool) (mantissa exponent : Nat) : Int :=
  if negative then -(units mantissa exponent : Int) else units mantissa exponent

/-- `a` is at least `b`; nothing is at least NaN, and NaN is at least nothing. -/
def atLeast : Binary64 → Binary64 → Bool
  | nan, _ => false
  | _, nan => false
  | infinity false, _ => true
  | infinity true, b => b = infinity true
  | _, infinity negative => negative
  | finite s m e, finite s' m' e' => signedUnits s m e ≥ signedUnits s' m' e'

def neg : Binary64 → Binary64
  | nan => nan
  | infinity negative => infinity (!negative)
  | finite negative mantissa exponent => finite (!negative) mantissa exponent

end Binary64

end MemoryArbiter
