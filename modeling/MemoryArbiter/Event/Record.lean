import MemoryArbiter.Event
import MemoryArbiter.Json.Record
import MemoryArbiter.Text.Blank

/-! # Events in JSON

An event is a record of six members; the two callers and the bundle name may be left out.  A line
of an event stream holds one event (`parse_event_line`); blank lines and lines that begin with `#` are
skipped.
-/

namespace MemoryArbiter

open Document

def Reason.ofJson? (v : Json) : Option Reason := v.bare?.bind Reason.ofName?

def Event.memberNames : List String :=
  ["pid", "caller_pid", "caller_uid", "target_uid", "bundle_name", "reason"]

def Event.ofJson? (v : Json) : Option Event :=
  match Json.members? Event.memberNames v with
  | some [pid, callerPid, callerUid, targetUid, bundleName, reason] => do
    let pid ← required int32? pid
    let callerPid ← optional none (nullable? int32?) callerPid
    let callerUid ← optional none (nullable? int32?) callerUid
    let targetUid ← required int32? targetUid
    let bundleName ← optional "" text? bundleName
    let reason ← required Reason.ofJson? reason
    return { pid, callerPid, callerUid, targetUid, bundleName, reason }
  | _ => none

def Event.toJson (ev : Event) : Json :=
  let caller : Option Int → Json
    | some i => .ofInt i
    | none => .null
  .ofMembers
    [("pid", .ofInt ev.pid), ("caller_pid", caller ev.callerPid),
      ("caller_uid", caller ev.callerUid), ("target_uid", .ofInt ev.targetUid),
      ("bundle_name", .ofString ev.bundleName), ("reason", .ofString ev.reason.recordName)]

/-- What a line of an event stream holds. -/
inductive EventLine
  | skipped
  | event (ev : Event)
  | malformed
  deriving DecidableEq, Repr, Inhabited

/-- The line, without the blanks around it, is empty or a comment. -/
def isSkippedLine (line : List Char) : Bool :=
  match Text.trim line with
  | [] => true
  | c :: _ => c == '#'

theorem isSkippedLine_blank_cons {c : Char} (h : Text.isBlank c = true) (line : List Char) :
    isSkippedLine (c :: line) = isSkippedLine line := by
  unfold isSkippedLine
  rw [Text.trim_blank_cons h]

theorem isSkippedLine_cons {c : Char} (h : Text.isBlank c = false) (line : List Char) :
    isSkippedLine (c :: line) = (c == '#') := by
  obtain ⟨rest, htrim⟩ := Text.exists_trim_cons h line
  unfold isSkippedLine
  rw [htrim]

def EventLine.read (line : List Char) : EventLine :=
  if isSkippedLine line then .skipped
  else
    match (Json.read? (Text.trim line)).bind Event.ofJson? with
    | some ev => .event ev
    | none => .malformed

end MemoryArbiter
