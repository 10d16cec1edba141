import MemoryArbiter.Binary64.Rounding
import MemoryArbiter.Text.Integer

/-! # Reading numbers

A number is an optional sign, digits with at most one point among them, and an optional exponent;
or an infinity or NaN by name.  The number read is the nearest one to the decimal value.
-/

namespace MemoryArbiter.Binary64

open MemoryArbiter.Text

/-- The number nearest to `digits · 10 ^ exponent`.  Exponents far off the range are decided
without computing the power. -/
def ofDecimal (negative : Bool) (digits : Nat) (exponent : Int) : Binary64 :=
  let places : Int := (Nat.repr digits).length + exponent
  if digits = 0 || places < -400 then finite negative 0 0
  else if places > 400 then infinity negative
  else if exponent < 0 then ofRatio negative digits (tenPow exponent.natAbs)
  else ofRatio negative (digits * tenPow exponent.natAbs) 1

def digitsValue (cs : List Char) : Nat := (digitsFrom 0 cs).getD 0

/-- The exponent part: `e` or `E`, an optional sign, digits.  No text is no exponent. -/
def exponent? : List Char → Option Int
  | [] => some 0
  | c :: cs =>
    if c = 'e' || c = 'E' then
      match cs with
      | '-' :: ds => (digits? ds).map fun n => -Int.ofNat n
      | '+' :: ds => (digits? ds).map Int.ofNat
      | ds => (digits? ds).map Int.ofNat
    else none

def unsigned? (negative : Bool) (cs : List Char) : Option Binary64 :=
  let whole := cs.takeWhile isDigit
  let rest := cs.dropWhile isDigit
  let fraction := match rest with
    | '.' :: ds => ds.takeWhile isDigit
    | _ => []
  let tail := match rest with
    | '.' :: ds => ds.dropWhile isDigit
    | _ => rest
  if whole.isEmpty && fraction.isEmpty then none
  else
    (exponent? tail).map fun e =>
      ofDecimal negative (digitsValue (whole ++ fraction)) (e - fraction.length)

def named? (negative : Bool) (cs : List Char) : Option Binary64 :=
  let name := String.ofList (cs.map Char.toLower)
  if name = "inf" || name = "infinity" then some (infinity negative)
  else if name = "nan" then some nan
  else none

def read? (cs : List Char) : Option Binary64 :=
  match cs with
  | '-' :: ds => unsigned? true ds <|> named? true ds
  | '+' :: ds => unsigned? false ds <|> named? false ds
  | ds => unsigned? false ds <|> named? false ds

end MemoryArbiter.Binary64
