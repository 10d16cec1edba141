import MemoryArbiter.Arbiter.Start
import MemoryArbiter.Command.Status
import MemoryArbiter.Event.Record
import MemoryArbiter.Failure

/-! # The daemon command

The arbiter runs over the process file system: the configured account comes to the foreground, the
monitor and the sweeps start, and the events of a file are applied one after the other
(`feed_events`).  Malformed lines are passed over; a line that is no text ends the stream.
-/

namespace MemoryArbiter

namespace Daemon

def headerLines (c : Config) (events : Option String) : List String :=
  ["🧠 reclaimd — Starting memory-pressure arbitration",
    "   procfs:      " ++ c.procRoot,
    s!"   Kill tiers:  {c.killTiers.length}",
    "   Killer:      " ++ (if c.killer.enabled then "enabled" else "disabled"),
    "   Events:      " ++ events.getD "none"]

/-- Apply the event of a line, if it holds one. -/
def feedLine (a : Arbiter Procfs) (line : List Char) : Arbiter Procfs :=
  match EventLine.read line with
  | .event ev => (a.update ev).1
  | _ => a

def lineFeed : UInt8 := 10

/-- The lines of a stream of bytes, the first one continuing `line`, which is kept in reverse. -/
def byteLines (line : List UInt8) : List UInt8 → List (List UInt8)
  | [] => [line.reverse]
  | b :: bs =>
    if b = lineFeed then line.reverse :: byteLines [] bs else byteLines (b :: line) bs

/-- The texts of lines, up to the first that is no text. -/
def readable : List (List UInt8) → List (List Char)
  | [] => []
  | line :: rest =>
    match decodeText? line with
    | some s => s.toList :: readable rest
    | none => []

/-- Apply the events of a file; one that cannot be read has none. -/
def feed (files : FileTree) (events : Option String) (a : Arbiter Procfs) : Arbiter Procfs :=
  match events with
  | none => a
  | some path =>
    match files.readBytes path with
    | .ok bytes => (readable (byteLines [] bytes)).foldl feedLine a
    | .error _ => a

def start (c : Config) (kernel : Procfs) (events : Option String) : Arbiter Procfs :=
  let a := ((c.start kernel).switchTo c.account.foregroundAccount).1
  let a := if c.killer.enabled then a.monitorBy c else a
  feed kernel.files events (a.sweepBy c)

/-- Why the daemon does not start, if it does not: the killer needs to read the free memory. -/
def refusal? (c : Config) (kernel : Procfs) : Option KernelError :=
  if c.killer.enabled then
    match kernel.readBuffer with
    | .ok _ => none
    | .error e => some e
  else none

end Daemon

open Daemon in
/-- Run the daemon for `ms` milliseconds: what it prints, and the files after that. -/
def Host.daemon (h : Host) (events : Option String) (ms : Nat) : Output Failure × FileTree :=
  match h.loadConfig with
  | .error e => (.failed (.config e), h.files)
  | .ok c =>
    let kernel := h.procfs c
    match refusal? c kernel with
    | some e => ({ lines := headerLines c events, error? := some (.kernel e) }, h.files)
    | none =>
      ({ lines := headerLines c events }, ((start c kernel events).advance ms).kernel.files)

end MemoryArbiter
