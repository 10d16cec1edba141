import MemoryArbiter.Event.Record
import MemoryArbiter.Text.Lines

/-! # Scripts

A script holds one step in JSON per line (`parse_script`).  Blank lines and comments are skipped, but
counted: the first malformed line is reported by its number, counted from 1.
-/

namespace MemoryArbiter

open Document

inductive ScriptStep
  | spawn (pid : Int) (rssKb : Nat)
  | event (ev : Event)
  | switchAccount (account : Int)
  | buffer (kb : Nat)
  | pressure
  | snapshot
  deriving DecidableEq, Repr, Inhabited

namespace ScriptStep

def ofChoice? : String → Option Json → Option ScriptStep
  | "spawn", some v =>
    match Json.members? ["pid", "rss_kb"] v with
    | some [pid, rssKb] => do
      let pid ← required int32? pid
      let rssKb ← required nat64? rssKb
      return .spawn pid rssKb
    | _ => none
  | "event", some v => (Event.ofJson? v).map .event
  | "switch_account", some v =>
    match Json.members? ["account"] v with
    | some [account] => (required int32? account).map .switchAccount
    | _ => none
  | "buffer", some v =>
    match Json.members? ["kb"] v with
    | some [kb] => (required nat64? kb).map .buffer
    | _ => none
  | "pressure", none => some .pressure
  | "pressure", some .null => some .pressure
  | "snapshot", none => some .snapshot
  | "snapshot", some .null => some .snapshot
  | _, _ => none

def ofJson? (v : Json) : Option ScriptStep :=
  v.choice?.bind fun (name, content) => ofChoice? name content

def ofLine? (line : List Char) : Option ScriptStep := (Json.read? line).bind ofJson?

end ScriptStep

namespace Script

/-- The steps of `lines`, the first of which has the number `n`; or the number of the first
malformed line. -/
def readLines (n : Nat) : List (List Char) → Except Nat (List ScriptStep)
  | [] => .ok []
  | line :: rest =>
    if isSkippedLine line then readLines (n + 1) rest
    else
      match ScriptStep.ofLine? line with
      | none => .error n
      | some step => (readLines (n + 1) rest).map (step :: ·)

def read (cs : List Char) : Except Nat (List ScriptStep) := readLines 1 (Text.lines cs)

end Script

end MemoryArbiter
