/-! # JSON values

Numbers keep their digits, since what a number means depends on who reads it.  Objects keep their
members in order, repeated names included.  The text of a string is `none` if its escapes name half
of a surrogate pair: such a string is well formed, but denotes no text.
-/

namespace MemoryArbiter

/-- A number as it is written: digits before and behind the point, and the exponent's sign and
digits. -/
structure JsonNumber where
  negative : Bool
  whole : List Char
  fraction : List Char := []
  exponent : Option (Bool × List Char) := none
  deriving DecidableEq, Repr, Inhabited

inductive Json
  | null
  | bool (value : Bool)
  | number (value : JsonNumber)
  | text (value : Option String)
  | array (items : List Json)
  | object (members : List (Option String × Json))
  deriving Repr, Inhabited

namespace Json

def ofString (s : String) : Json := text (some s)

def ofInt (i : Int) : Json := number { negative := i < 0, whole := Nat.toDigits 10 i.natAbs }

def ofNat (n : Nat) : Json := number { negative := false, whole := Nat.toDigits 10 n }

def ofMembers (members : List (String × Json)) : Json :=
  object (members.map fun (name, value) => (some name, value))

end Json

end MemoryArbiter
