import MemoryArbiter.Json.Basic
import MemoryArbiter.Binary64.Reading

/-! # What JSON numbers mean

A number without a fraction and an exponent that fits 64 bits is an integer; `-0` is not.  Any
other number is a floating-point number that is read with limited precision: the leading digits
that fit 64 bits, scaled once by a power of ten, each step rounded.
-/

namespace MemoryArbiter.JsonNumber

open Text Binary64

def integer? (n : JsonNumber) : Option Int :=
  if n.fraction.isEmpty && n.exponent.isNone then
    let magnitude := digitsValue n.whole
    if n.negative then
      if 0 < magnitude && magnitude ≤ twoPow 63 then some (-magnitude) else none
    else if magnitude ≤ maxNat64 then some magnitude
    else none
  else none

/-! ### The leading digits -/

/-- Append digits while the number fits 64 bits; also the digits that are left. -/
def takeDigits (significand : Nat) : List Char → Nat × List Char
  | [] => (significand, [])
  | c :: cs =>
    let next := 10 * significand + (digit? c).getD 0
    if next ≤ maxNat64 then takeDigits next cs else (significand, c :: cs)

/-- The leading digits and the power of ten that they count. -/
def leading (n : JsonNumber) : Nat × Int :=
  let (significand, left) := takeDigits 0 n.whole
  let (significand', left') := takeDigits significand n.fraction
  (significand', Int.ofNat left.length - (n.fraction.length - left'.length))

/-! ### Scaling -/

/-- The largest power of ten that a scaling step may use. -/
def maxPower : Nat := 308

def powerOfTen (k : Nat) : Binary64 := ofRatio false (tenPow k) 1

def product (a b : Binary64) : Binary64 :=
  match a.magnitude?, b.magnitude? with
  | some m, some n => ofRatio false (m * n) (unitsPerOne * unitsPerOne)
  | _, _ => infinity false

def quotient (a b : Binary64) : Binary64 :=
  match a.magnitude?, b.magnitude? with
  | some m, some n => ofRatio false m n
  | _, _ => infinity false

/-- `f · 10 ^ (-k)`, in steps of at most `maxPower`; zero needs no steps. -/
def scaleDown : Nat → Binary64 → Nat → Binary64
  | 0, f, _ => f
  | fuel + 1, f, k =>
    if k ≤ maxPower then quotient f (powerOfTen k)
    else if f = zero then f
    else scaleDown fuel (quotient f (powerOfTen maxPower)) (k - maxPower)

/-- `f · 10 ^ k`; none if that is too large. -/
def scale? (f : Binary64) (k : Int) : Option Binary64 :=
  if k < 0 then some (scaleDown (k.natAbs / maxPower + 1) f k.natAbs)
  else if f = zero then some f
  else if k.natAbs ≤ maxPower then
    match product f (powerOfTen k.natAbs) with
    | infinity _ => none
    | scaled => some scaled
  else none

/-- Exponents beyond this are not added up any more. -/
def maxExponentValue : Nat := 2147483647

/-- The floating-point number; none if it is too large. -/
def real? (n : JsonNumber) : Option Binary64 :=
  match n.integer? with
  | some i => some (ofInt i)
  | none =>
    let (significand, places) := n.leading
    let magnitude :=
      match n.exponent with
      | none => scale? (ofInt significand) places
      | some (negative, digits) =>
        let e := digitsValue digits
        if e ≤ maxExponentValue then
          scale? (ofInt significand) (if negative then places - e else places + e)
        else if significand = 0 || negative then some zero
        else none
    magnitude.map fun f => if n.negative then f.neg else f

end MemoryArbiter.JsonNumber
