import MemoryArbiter.Document
import MemoryArbiter.Json.Number
import MemoryArbiter.Json.Reader

/-! # Records in JSON

An object is a record if every name of it is a text and no declared name occurs twice; names that
are not declared are passed over.  An array is a record if it has no more items than there are
names.  A choice between alternatives is a string, or an object with one member.
-/

namespace MemoryArbiter.Json

def find? (name : String) : List (Option String × Json) → Option Json
  | [] => none
  | (n, v) :: members => if n = some name then some v else find? name members

def countName (name : String) (members : List (Option String × Json)) : Nat :=
  members.countP fun m => m.1 = some name

def members? (names : List String) : Json → Option (List (Option Json))
  | object members =>
    if members.all (fun m => m.1.isSome)
        && names.all fun name => countName name members ≤ 1 then
      some (names.map fun name => find? name members)
    else none
  | array items =>
    if items.length ≤ names.length then
      some (items.map some ++ List.replicate (names.length - items.length) none)
    else none
  | _ => none

instance : Document Json where
  integer?
    | number n => n.integer?
    | _ => none
  truth?
    | bool b => some b
    | _ => none
  text?
    | text s => s
    | _ => none
  real?
    | number n => n.real?
    | _ => none
  items?
    | array items => some items
    | _ => none
  members? := members?
  isNull
    | null => true
    | _ => false

/-- The alternative that a node names, with its content; a string has none. -/
def choice? : Json → Option (String × Option Json)
  | text (some name) => some (name, none)
  | object [(some name, content)] => some (name, some content)
  | _ => none

/-- An alternative without content. -/
def bare? : Json → Option String
  | text (some name) => some name
  | object [(some name, null)] => some name
  | _ => none

end MemoryArbiter.Json
