import MemoryArbiter.Arbiter.Start
import MemoryArbiter.Command.Output
import MemoryArbiter.Config.Load
import MemoryArbiter.Failure
import MemoryArbiter.Hierarchy.Record
import MemoryArbiter.Kernel.Simulated
import MemoryArbiter.Script
import MemoryArbiter.Text.Column

/-! # The simulate command

The steps of a script are replayed on a simulated kernel (`apply_step`).  Every step prints what it
did; at the end the bundles are listed (`print_snapshot`).
-/

namespace MemoryArbiter

namespace Simulate

open Text

/-- The resident size of a process that the script starts without saying how large it is. -/
def assumedRssKb : Nat := 1024

/-- Megabytes in KB, at most the largest amount that there is. -/
def bufferOfMegabytes (mb : Nat) : Nat := min (mb * 1024) maxNat64

/-! ### The table of bundles -/

def tableLine (uid priority level account state name : String) : String :=
  "  " ++ padLeft 10 uid ++ "  " ++ padLeft 9 priority ++ "  " ++ padRight 14 level ++ "  "
    ++ padLeft 7 account ++ "  " ++ padRight 16 state ++ "  " ++ name

def rowLine (row : BundleRow) : String :=
  tableLine (toString row.uid) (toString row.priority) (Level.name row.priority)
    (toString row.account) (if row.pinned then "pinned" else row.state.title) row.name

def table (rows : List BundleRow) : List String :=
  tableLine "UID" "PRIORITY" "LEVEL" "ACCOUNT" "STATE" "BUNDLE" :: rows.map rowLine

/-! ### Steps -/

/-- A step's result: the arbiter after it, and the lines it prints or why the script ends. -/
abbrev StepResult := Arbiter SimulatedKernel × Except ClosedQueue (List String)

/-- The kernel at an event: a process that starts is there, one that ends is not. -/
def kernelAt (ev : Event) (k : SimulatedKernel) : SimulatedKernel :=
  match ev.reason with
  | .createProcess => if k.isAlive ev.pid then k else k.spawn ev.pid assumedRssKb
  | .processTerminated => k.exit ev.pid
  | _ => k

def eventLine (ev : Event) (accepted : Bool) : String :=
  let mark := if accepted then "✅" else "⏭️ "
  s!"  {mark} {ev.reason.name} pid={ev.pid} uid={ev.targetUid}"

def killLine (k : Kill) : String :=
  s!"  💀 killed {k.name} (uid {k.uid}, priority {k.priority}) freed {k.freedKb} KB"

def passLines (r : KillReport) : List String :=
  r.killed.map killLine
    ++ [s!"  ⚡ pressure pass: {r.killed.length} kill(s), {r.freedKb} KB freed"]

def step (a : Arbiter SimulatedKernel) : ScriptStep → StepResult
  | .spawn pid rssKb => ({ a with kernel := a.kernel.spawn pid rssKb }, .ok [])
  | .event ev =>
    let done := { a with kernel := kernelAt ev a.kernel }.update ev
    (done.1, done.2.map fun accepted => [eventLine ev accepted])
  | .switchAccount account =>
    let done := a.switchTo account
    (done.1, done.2.map fun switched =>
      [s!"  🔀 account {account}" ++ if switched then "" else " (unchanged)"])
  | .buffer kb =>
    ({ a with kernel := a.kernel.setBuffer kb }, .ok [s!"  📉 buffer = {kb} KB"])
  | .pressure =>
    let done := a.pass
    (done.1, done.2.map passLines)
  | .snapshot => (a, a.snapshot.map table)

/-- The lines that a script prints, and why it ends early if it does. -/
def run (a : Arbiter SimulatedKernel) : List ScriptStep → List String × Option ClosedQueue
  | [] =>
    match a.snapshot with
    | .ok rows => ("" :: table rows, none)
    | .error e => ([""], some e)
  | s :: steps =>
    match step a s with
    | (a, .ok lines) =>
      let rest := run a steps
      (lines ++ rest.1, rest.2)
    | (_, .error e) => ([], some e)

end Simulate

open Simulate in
def Host.simulate (h : Host) (path : String) (bufferMb : Nat) : Output Failure :=
  match h.files.readText path with
  | .error e => .failed (.file e)
  | .ok text =>
    match Script.read text.toList with
    | .error line => .failed (.input line)
    | .ok steps =>
      match h.loadConfig with
      | .error e => .failed (.config e)
      | .ok c =>
        let ran := run (c.start (SimulatedKernel.new (bufferOfMegabytes bufferMb))) steps
        { lines :=
            [s!"🧪 reclaimd simulate — {steps.length} step(s)",
              s!"   Start buffer: {bufferMb} MB",
              ""]
            ++ ran.1
          error? := ran.2.map .service }

end MemoryArbiter
