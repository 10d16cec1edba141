import MemoryArbiter.Hierarchy
import MemoryArbiter.Json.Record

/-! # Bundle rows in JSON

A row is a record of seven members, none of which may be left out.
-/

namespace MemoryArbiter

open Document

namespace BundleState

def wireName : BundleState → String
  | normal => "normal"
  | waitingForKill => "waiting_for_kill"

def ofJson? (v : Json) : Option BundleState :=
  v.bare?.bind fun s => [normal, waitingForKill].find? fun state => state.wireName == s

def title : BundleState → String
  | normal => "Normal"
  | waitingForKill => "WaitingForKill"

end BundleState

namespace BundleRow

def memberNames : List String :=
  ["uid", "name", "priority", "account_id", "state", "pinned", "pids"]

def ofJson? (v : Json) : Option BundleRow :=
  match Json.members? memberNames v with
  | some [uid, name, priority, account, state, pinned, pids] => do
    let uid ← required int32? uid
    let name ← required text? name
    let priority ← required int32? priority
    let account ← required int32? account
    let state ← required BundleState.ofJson? state
    let pinned ← required truth? pinned
    let pids ← required (list? int32?) pids
    return { uid, name, priority, account, state, pinned, pids }
  | _ => none

def toJson (row : BundleRow) : Json :=
  .ofMembers
    [("uid", .ofInt row.uid), ("name", .ofString row.name), ("priority", .ofInt row.priority),
      ("account_id", .ofInt row.account), ("state", .ofString row.state.wireName),
      ("pinned", .bool row.pinned), ("pids", .array (row.pids.map .ofInt))]

end BundleRow

end MemoryArbiter
