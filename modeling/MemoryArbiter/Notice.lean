import MemoryArbiter.Engine.Basic
import MemoryArbiter.Json.Basic

/-! # Notices

What the engine and the killer publish about their work (`DomainEvent`), for whoever listens.
-/

namespace MemoryArbiter

inductive Notice
  /-- A bundle entered the index or moved in it. -/
  | priorityChanged (uid : Int) (name : String) (account : Int) (old : Option Int) (new : Int)
  /-- The last process of a bundle is gone. -/
  | bundleRemoved (uid : Int) (name : String)
  | accountSwitched (previous : Option Int) (current : Int)
  | bundleKilled (uid : Int) (name : String) (priority : Int) (freedKb : Nat)
  | passFinished (kills freedKb : Nat)
  deriving DecidableEq, Repr, Inhabited

def Change.notice (c : Change) : Notice :=
  match c.new with
  | some new => .priorityChanged c.uid c.name c.account c.old new
  | none => .bundleRemoved c.uid c.name

/-- The notice as a JSON object with one member, named for its kind. -/
def Notice.toJson : Notice → Json
  | priorityChanged uid name account old new =>
    .ofMembers [("BundlePriorityChanged", .ofMembers
      [("uid", .ofInt uid), ("bundle_name", .ofString name), ("account_id", .ofInt account),
        ("old_priority", (old.map Json.ofInt).getD .null), ("new_priority", .ofInt new)])]
  | bundleRemoved uid name =>
    .ofMembers [("BundleRemoved", .ofMembers
      [("uid", .ofInt uid), ("bundle_name", .ofString name)])]
  | accountSwitched previous current =>
    .ofMembers [("AccountSwitched", .ofMembers
      [("previous", (previous.map Json.ofInt).getD .null), ("current", .ofInt current)])]
  | bundleKilled uid name priority freedKb =>
    .ofMembers [("BundleKilled", .ofMembers
      [("uid", .ofInt uid), ("bundle_name", .ofString name), ("priority", .ofInt priority),
        ("freed_kb", .ofNat freedKb)])]
  | passFinished kills freedKb =>
    .ofMembers [("PressurePass", .ofMembers
      [("kills", .ofNat kills), ("freed_kb", .ofNat freedKb)])]

end MemoryArbiter
