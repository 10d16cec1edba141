import MemoryArbiter.Binary64.Rounding
import MemoryArbiter.Document
import MemoryArbiter.Toml.Basic

/-! # Records in TOML

A table is a record, whatever other names it has.  An array is a record of its first items, and a
time is one without any member.  An integer may stand for a real.
-/

namespace MemoryArbiter.Toml

def members? (names : List String) : Toml → Option (List (Option Toml))
  | table _ members => some (names.map fun name => find? name members)
  | array _ items =>
    some ((items.take names.length).map some ++
      List.replicate (names.length - items.length) none)
  | time _ => some (names.map fun _ => none)
  | _ => none

instance : Document Toml where
  integer?
    | integer i => some i
    | _ => none
  truth?
    | bool b => some b
    | _ => none
  text?
    | text s => some s
    | _ => none
  real?
    | real x => some x
    | integer i => some (.ofInt i)
    | _ => none
  items?
    | array _ items => some items
    | _ => none
  members? := members?
  isNull _ := false

end MemoryArbiter.Toml
