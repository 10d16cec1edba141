/-! # Decimal integers

Reading takes ASCII digits only; a number outside the given range is no number.
-/

namespace MemoryArbiter.Text

def digit? (c : Char) : Option Nat :=
  if '0' ≤ c && c ≤ '9' then some (c.toNat - '0'.toNat) else none

def isDigit (c : Char) : Bool := (digit? c).isSome

def hexDigit? (c : Char) : Option Nat :=
  if '0' ≤ c && c ≤ '9' then some (c.toNat - '0'.toNat)
  else if 'a' ≤ c && c ≤ 'f' then some (c.toNat - 'a'.toNat + 10)
  else if 'A' ≤ c && c ≤ 'F' then some (c.toNat - 'A'.toNat + 10)
  else none

/-- The number that `n` becomes when the digits `cs` are written behind it. -/
def digitsFrom (n : Nat) : List Char → Option Nat
  | [] => some n
  | c :: cs => (digit? c).bind fun d => digitsFrom (10 * n + d) cs

/-- Value of a list of digits; an empty list has none. -/
def digits? : List Char → Option Nat
  | [] => none
  | cs => digitsFrom 0 cs

def maxNat64 : Nat := 18446744073709551615

def minInt32 : Int := -2147483648

def maxInt32 : Int := 2147483647

/-- Digits, with an optional plus sign in front; at most 64 bits. -/
def nat64? (cs : List Char) : Option Nat :=
  let digits := match cs with
    | '+' :: ds => ds
    | ds => ds
  (digits? digits).filter fun n => n ≤ maxNat64

/-- Digits, with an optional sign in front; 32 bits. -/
def int32? (cs : List Char) : Option Int :=
  let value := match cs with
    | '+' :: ds => (digits? ds).map Int.ofNat
    | '-' :: ds => (digits? ds).map fun n => -Int.ofNat n
    | ds => (digits? ds).map Int.ofNat
  value.filter fun i => minInt32 ≤ i && i ≤ maxInt32

end MemoryArbiter.Text
