/-! # Columns

Padding counts characters; a text that is wider than its column is left as it is.
-/

namespace MemoryArbiter.Text

def blanks (n : Nat) : String := String.ofList (List.replicate n ' ')

/-- `s` at the left of a column of `width` characters. -/
def padRight (width : Nat) (s : String) : String := s ++ blanks (width - s.length)

/-- `s` at the right of a column of `width` characters. -/
def padLeft (width : Nat) (s : String) : String := blanks (width - s.length) ++ s

end MemoryArbiter.Text
