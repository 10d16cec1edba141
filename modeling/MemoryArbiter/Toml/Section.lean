import MemoryArbiter.Toml.Basic

/-! # Definitions in TOML

Every table and every member is defined once.  A dotted key may go on through tables that only
dotted keys or the way to a header have named; it may add its member only to a table that dotted
keys have named.  A header may name again a table that was only on the way to another header.
-/

namespace MemoryArbiter.Toml

/-- A change of a table, which may be refused. -/
abbrev Change := TableOrigin → Members → Option (TableOrigin × Members)

/-- Change the table that `names` lead to; tables on the way that are not there are founded.  An
array of headed tables stands for its last table.  `byKey` tells that the names are parts of a
dotted key, not of a header. -/
def alterAt? (byKey : Bool) (change : Change) : List String → Change
  | [], origin, ms => change origin ms
  | name :: names, origin, ms =>
    match find? name ms with
    | none =>
      (alterAt? byKey change names (if byKey then .dotted else .implied) []).map fun t =>
        (origin, ms ++ [(name, .table t.1 t.2)])
    | some (.table o sub) =>
      if o = .braces || (byKey && o = .header) then none
      else
        (alterAt? byKey change names o sub).map fun t =>
          (origin, replace name (.table t.1 t.2) ms)
    | some (.array true items) =>
      match items.getLast? with
      | some (.table o sub) =>
        (alterAt? byKey change names o sub).map fun t =>
          (origin, replace name (.array true (items.dropLast ++ [.table t.1 t.2])) ms)
      | _ => none
    | some _ => none

/-- Add the member `name`, which must be new.  `direct` tells that the key has no further part: then
the table must not be one that dotted keys founded, otherwise it must be. -/
def addMember? (direct : Bool) (name : String) (v : Toml) : Change
  | origin, ms =>
    if (origin == .dotted) == direct then none
    else if (find? name ms).isSome then none
    else some (origin, ms ++ [(name, v)])

def addByKey? (names : List String) (v : Toml) : Change
  | origin, ms =>
    match names.getLast? with
    | none => none
    | some name =>
      alterAt? true (addMember? names.dropLast.isEmpty name v) names.dropLast origin ms

/-- Add a member to a table in braces. -/
def define? (names : List String) (v : Toml) (ms : Members) : Option Members :=
  (addByKey? names v .braces ms).map Prod.snd

/-- Open the table `name` by a header. -/
def openTable? (name : String) : Change
  | origin, ms =>
    match find? name ms with
    | none => some (origin, ms ++ [(name, .table .header [])])
    | some (.table .implied sub) => some (origin, replace name (.table .header sub) ms)
    | some _ => none

/-- Open one more table of the array `name` by a header. -/
def openNext? (name : String) : Change
  | origin, ms =>
    match find? name ms with
    | none => some (origin, ms ++ [(name, .array true [.table .header []])])
    | some (.array true items) =>
      some (origin, replace name (.array true (items ++ [.table .header []])) ms)
    | some _ => none

/-- A file that is being read: its members, and the names of the table that is open. -/
structure Draft where
  members : Members := []
  path : List String := []

namespace Draft

/-- Change the table at `path`, counted from the whole file. -/
def alter? (d : Draft) (path : List String) (change : Change) : Option Members :=
  (alterAt? false change path .header d.members).map Prod.snd

/-- A header: one pair of brackets, or two for a table of an array. -/
def header? (d : Draft) (names : List String) (next : Bool) : Option Draft :=
  match names.getLast? with
  | none => none
  | some name =>
    (d.alter? names.dropLast (if next then openNext? name else openTable? name)).map fun ms =>
      { members := ms, path := names }

def define? (d : Draft) (names : List String) (v : Toml) : Option Draft :=
  (d.alter? d.path (addByKey? names v)).map fun ms => { d with members := ms }

end Draft

end MemoryArbiter.Toml
