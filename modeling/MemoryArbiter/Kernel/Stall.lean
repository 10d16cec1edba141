import MemoryArbiter.Binary64.Reading
import MemoryArbiter.Kernel.Basic
import MemoryArbiter.Text.Blank
import MemoryArbiter.Text.Lines

/-! # The stall file

Each line names a kind and then fields; only the ten-second average of the kinds `some` and `full`
counts, and the last line of a kind wins.  Kernels without a `full` line report no full stalls.  A
value that is no number is an error on whatever line it stands.
-/

namespace MemoryArbiter

namespace Stall

open Text

/-- The ten-second average among the fields, as it is written. -/
def averageField? (fields : List (List Char)) : Option (List Char) :=
  fields.findSome? (after? "avg10=".toList)

structure Averages where
  some? : Option Binary64 := none
  full? : Option Binary64 := none
  deriving DecidableEq, Repr, Inhabited

def Averages.record (a : Averages) (kind : List Char) (v : Binary64) : Averages :=
  if kind = "some".toList then { a with some? := some v }
  else if kind = "full".toList then { a with full? := some v }
  else a

/-- Take in one line; the error is the value that is no number. -/
def Averages.line (a : Averages) (line : List Char) : Except (List Char) Averages :=
  match words line with
  | [] => .ok a
  | kind :: fields =>
    match averageField? fields with
    | none => .ok a
    | some value =>
      match Binary64.read? value with
      | none => .error value
      | some v => .ok (a.record kind v)

/-- The stall averages of a file's contents, or what is wrong with it (`parse_memory_pressure`). -/
def read (contents : List Char) : Except String Stall :=
  match (lines contents).foldlM Averages.line {} with
  | .error value => .error s!"bad avg10 value: {String.ofList value}"
  | .ok a =>
    match a.some? with
    | none => .error "missing 'some' line"
    | some v => .ok ⟨v, a.full?.getD Binary64.zero⟩

end Stall

end MemoryArbiter
