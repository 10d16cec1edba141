import MemoryArbiter.Engine.Journal

/-! # Upkeep of the hierarchy

The operations that the steps of the engine are made of: recomputing the priority of a process
from its level (`settle_process`), the priority of a bundle from its processes, and taking a process
out.
-/

namespace MemoryArbiter

namespace Engine

/-- The offset of the account `id`; an account without bundles has none. -/
def offsetOf (e : Engine) (id : Int) : Int :=
  match e.accounts.get? id with
  | some a => a.offset
  | none => 0

def members (e : Engine) (b : Bundle) : List TrackedProcess :=
  b.pids.toList.filterMap e.processes.get?

/-- The most important level among the processes of `uid`, before any offset (`bundle_level`). -/
def levelOf (e : Engine) (uid : Int) : Option Int :=
  (e.bundles.get? uid).bind fun b => ((e.members b).map TrackedProcess.level).min?

/-- The priority that `p` has in its bundle and account. -/
def priorityNow (e : Engine) (p : TrackedProcess) : Int :=
  if ((e.bundles.get? p.uid).map Bundle.pinned).getD false then Level.system
  else moved p.level (e.offsetOf (accountOf p.uid)) e.settings.clamp

def updateProcess (e : Engine) (pid : Int) : Engine :=
  match e.processes.get? pid with
  | some p => { e with processes := e.processes.insert pid { p with priority := e.priorityNow p } }
  | none => e

/-- The priority that `b` has by its processes. -/
def bundlePriority (e : Engine) (b : Bundle) : Int :=
  if b.pinned then Level.system
  else ((e.members b).map TrackedProcess.priority).min?.getD Level.unknown

/-- Recompute the priority of the bundle `uid` and move it in the index (`refresh_bundle`). -/
def updateBundle (e : Engine) (uid : Int) : Engine :=
  match e.bundles.get? uid with
  | some b =>
    let priority := e.bundlePriority b
    { e with
      bundles := e.bundles.insert uid { b with priority := priority }
      index := e.index.insert uid priority }
  | none => e

/-- Put the record `p` in its place and recompute its priority and its bundle. -/
def putProcess (e : Engine) (p : TrackedProcess) : Engine :=
  let e := { e with processes := e.processes.insert p.pid p }
  (e.updateProcess p.pid).updateBundle p.uid

/-- Recompute every process of the bundle `uid`, then the bundle (`resettle_bundle`). -/
def updateMembers (e : Engine) (uid : Int) : Engine :=
  let pids := ((e.bundles.get? uid).map fun b => b.pids.toList).getD []
  (pids.foldl updateProcess e).updateBundle uid

/-- The record of account `id`, made on the spot if there is none (`ensure_account`). -/
def accountRecord (e : Engine) (id : Int) : Account :=
  match e.accounts.get? id with
  | some a => a
  | none =>
    { id := id
      isCurrent := e.current == some id
      isPrevious := e.previous == some id
      shift := e.settings.shift }

def enroll (e : Engine) (uid : Int) : Engine :=
  let a := e.accountRecord (accountOf uid)
  { e with accounts := e.accounts.insert (accountOf uid) { a with uids := a.uids.insert uid } }

/-- Take `uid` off the account `id`, and drop the account with its last bundle. -/
def delist (e : Engine) (id uid : Int) : Engine :=
  match e.accounts.get? id with
  | some a =>
    let uids := Table.erase a.uids uid
    if uids.isEmpty then { e with accounts := e.accounts.erase id }
    else { e with accounts := e.accounts.insert id { a with uids := uids } }
  | none => e

def dropBundle (e : Engine) (b : Bundle) : Engine :=
  { e with
    bundles := e.bundles.erase b.uid
    index := (e.index.take b.uid).1 }.delist b.account b.uid

/-- Take the process `pid` out, and with the last process of a bundle also the bundle
(`remove_process`).  A bundle is recomputed only if the process may have been its most important
one. -/
def dropProcess (e : Engine) (pid : Int) (j : Journal) : Engine × Journal :=
  match e.processes.get? pid with
  | none => (e, j)
  | some p =>
    let e := { e with processes := e.processes.erase pid }
    let j := if p.boost.isSome then j.emit (.cancelTimer pid) else j
    let j := e.record p.uid j
    match e.bundles.get? p.uid with
    | none => (e, j)
    | some b =>
      let b := { b with pids := Table.erase b.pids pid }
      let e := { e with bundles := e.bundles.insert p.uid b }
      if b.pids.isEmpty then (e.dropBundle b, j)
      else if p.priority ≤ b.priority then (e.updateBundle p.uid, j)
      else (e, j)

end Engine

end MemoryArbiter
