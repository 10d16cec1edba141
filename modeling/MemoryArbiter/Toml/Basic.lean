import MemoryArbiter.Binary64.Basic

/-! # TOML values

A table remembers how it came to be, and an array whether headers may add to it: both decide what a
later line of the same file may still define.  Points in time are kept as they are written.
-/

namespace MemoryArbiter

/-- How a table was defined. -/
inductive TableOrigin
  /-- Written between braces; nothing may be added to it. -/
  | braces
  /-- Named by a header, or the table of the whole file. -/
  | header
  /-- Named on the way to the table of a header. -/
  | implied
  /-- Named on the way to the last part of a dotted key. -/
  | dotted
  deriving DecidableEq, Repr, Inhabited

inductive Toml
  | text (value : String)
  | integer (value : Int)
  | real (value : Binary64)
  | bool (value : Bool)
  | time (written : String)
  /-- The items; with `growing`, each one is the table of a header and more may follow. -/
  | array (growing : Bool) (items : List Toml)
  | table (origin : TableOrigin) (members : List (String × Toml))
  deriving Repr, Inhabited

namespace Toml

abbrev Members := List (String × Toml)

def find? (name : String) : Members → Option Toml
  | [] => none
  | (n, v) :: ms => if n = name then some v else find? name ms

def replace (name : String) (v : Toml) (ms : Members) : Members :=
  ms.map fun m => if m.1 = name then (name, v) else m

/-- The characters that may stand in a text or a comment as they are: all but the controls, of which
only the tab may. -/
def isPlain (c : Char) : Bool := c = '\t' || (0x20 ≤ c.toNat && c.toNat != 0x7f)

/-- The blanks within a line. -/
def isGap (c : Char) : Bool := c = ' ' || c = '\t'

end Toml

end MemoryArbiter
