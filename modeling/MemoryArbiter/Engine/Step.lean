import MemoryArbiter.Engine.Upkeep
import MemoryArbiter.Rules

/-! # The steps of the engine

One function per kind of step; `Engine.update` sends an event to the right one.
-/

namespace MemoryArbiter

namespace Engine

/-! ### Processes come and go (`create_process`, `terminate_process`) -/

/-- The bundle that `ev` finds or founds, before its new process is in it. -/
def bundleFor (e : Engine) (ev : Event) : Bundle :=
  match e.bundles.get? ev.targetUid with
  | some b => b
  | none =>
    let pinned := e.settings.pinned.contains ev.bundleName
    { uid := ev.targetUid
      name := ev.bundleName
      account := accountOf ev.targetUid
      priority := if pinned then Level.system else Level.foreground
      pinned := pinned }

def recordJoined (e : Engine) (ev : Event) (j : Journal) : Journal :=
  if e.bundles.contains ev.targetUid then e.record ev.targetUid j
  else
    { j with
      former := j.former.insert ev.targetUid
        ⟨ev.bundleName, accountOf ev.targetUid, none⟩ }

def conclude (s : Engine × Journal) : Outcome := (s.1, .ok (s.1.report s.2))

/-- Take the process of `ev`, whose pid is free, into the bundle of its uid. -/
def takeIn (e : Engine) (ev : Event) (j : Journal) : Outcome :=
  let pid := ev.pid
  let uid := ev.targetUid
  let e := e.enroll uid
  let j := e.recordJoined ev j
  let e := { e with bundles := e.bundles.insert uid (e.bundleFor ev) }
  match e.bundles.get? uid with
  | none => (e, .error (.unknownBundle uid))
  | some b =>
    let b := { b with state := .normal, pids := b.pids.insert pid }
    let level := if b.pinned then Level.system else Level.foreground
    let e := { e with bundles := e.bundles.insert uid b }
    conclude
      (e.putProcess (TrackedProcess.start pid uid level), { j with newPids := j.newPids ++ [pid] })

/-- Track the process of `ev`.  A pid that is tracked under another uid has been reused: its former
process is taken out first. -/
def track (e : Engine) (ev : Event) : Outcome :=
  match e.processes.get? ev.pid with
  | some p =>
    if p.uid = ev.targetUid then (e, .ok {})
    else
      let s := e.dropProcess ev.pid {}
      s.1.takeIn ev s.2
  | none => e.takeIn ev {}

def untrack (e : Engine) (ev : Event) : Outcome :=
  if (e.processes.get? ev.pid).any fun p => p.uid = ev.targetUid then
    conclude (e.dropProcess ev.pid {})
  else (e, .error (.unknownProcess ev.pid ev.targetUid))

/-! ### Lifecycle (`apply_lifecycle`) -/

/-- What stands against changing the process `pid` of the bundle `uid` (`resolve_mutable`): it has to
be a live process of it, and the bundle must not be pinned. -/
def refusal? (e : Engine) (uid pid : Int) : Option Rejection :=
  match e.bundles.get? uid with
  | none => some (.unknownBundle uid)
  | some b =>
    if pid ∉ b.pids then some (.unknownProcess pid uid)
    else if b.pinned then some (.pinnedBundle uid b.name)
    else none

/-- A process is ready: nothing changes. -/
def noteReady (e : Engine) (ev : Event) : Outcome :=
  match e.refusal? ev.targetUid ev.pid with
  | some r => (e, .error r)
  | none => (e, .ok {})

def bindingFor (e : Engine) (ev : Event) : Option Binding :=
  if ev.reason = .bindExtension then
    some ⟨ev.callerUid, bindingFloor (ev.callerUid.bind e.levelOf)⟩
  else none

/-- The token for a boost by `reason`, if `reason` arms a timer and timers are in use. -/
def tokenFor (e : Engine) (reason : Reason) : Option Nat :=
  if reason.isBoost && e.settings.gracePeriod != 0 then some (e.lastToken + 1) else none

/-- The timer effects of replacing the boost `old` by one with `token`. -/
def timerEffects (e : Engine) (pid : Int) (old : Option Boost) (token : Option Nat) :
    List Effect :=
  (if old.isSome then [.cancelTimer pid] else []) ++
    match token with
    | some n => [.armTimer pid n e.settings.gracePeriod]
    | none => []

def changeProcess (e : Engine) (ev : Event) : Outcome :=
  match e.refusal? ev.targetUid ev.pid with
  | some r => (e, .error r)
  | none =>
    -- the token is taken before the process is looked up
    let token := e.tokenFor ev.reason
    let counted := { e with lastToken := token.getD e.lastToken }
    match e.processes.get? ev.pid with
    | none => (counted, .error (.unknownProcess ev.pid ev.targetUid))
    | some p =>
      let changed :=
        { p.respond ev.reason (e.bindingFor ev) with
          boost := token.map fun n => ⟨n, ev.reason⟩ }
      let j : Journal := { effects := e.timerEffects ev.pid p.boost token }
      conclude (counted.putProcess changed, counted.record ev.targetUid j)

/-! ### Accounts (`on_account_hot_switch`) -/

def uidsOf (e : Engine) (ids : List Int) : List Int :=
  ids.flatMap fun id => ((e.accounts.get? id).map fun a => a.uids.toList).getD []

/-- Bring `account` to the foreground: its bundles are promoted by the shift, those of the account
before it lose the shift. -/
def switchTo (e : Engine) (account : Int) : Outcome :=
  if e.current = some account then (e, .error (.accountUnchanged account))
  else
    let previous := e.current
    let e :=
      { e with
        current := some account
        previous := previous
        accounts := e.accounts.map fun a =>
          { a with isCurrent := a.id == account, isPrevious := some a.id == previous } }
    let affected := e.uidsOf (previous.toList ++ [account])
    conclude (affected.foldl updateMembers e, affected.foldl (fun j uid => e.record uid j) {})

/-! ### Boosts run out (`expire_grace`) -/

/-- Take back the boost of `pid` that was armed with `token`, unless something replaced it. -/
def expireBoost (e : Engine) (pid : Int) (token : Nat) : Outcome :=
  match e.processes.get? pid with
  | none => (e, .error (.staleTimer pid))
  | some p =>
    match p.boost.filter (fun b => b.token == token) |>.bind fun b => b.reason.undo? with
    | none => (e, .error (.staleTimer pid))
    | some reason =>
      conclude (e.putProcess ({ p with boost := none }.respond reason none), e.record p.uid {})

/-! ### The killer and the kernel report back -/

/-- Note that the bundle `uid` has been killed; `false` if it is gone already
(`mark_waiting_for_kill`). -/
def noteKilled (e : Engine) (uid : Int) : Engine × Bool :=
  match e.bundles.get? uid with
  | some b => ({ e with bundles := e.bundles.insert uid { b with state := .waitingForKill } }, true)
  | none => (e, false)

/-- Take out every process that is not among `live` (`reconcile`). -/
def retain (e : Engine) (live : List Int) : Engine × StepReport :=
  let dead := e.processes.keys.filter fun pid => !live.contains pid
  let s := dead.foldl (fun s pid => s.1.dropProcess pid s.2) (e, {})
  (s.1, s.1.report s.2)

/-! ### Events (`update_reclaim_priority`) -/

def update (e : Engine) (ev : Event) : Outcome :=
  match ev.reason with
  | .createProcess => e.track ev
  | .processTerminated => e.untrack ev
  | .osAccountChanged => e.switchTo (accountOf ev.targetUid)
  | .processReady => e.noteReady ev
  | _ => e.changeProcess ev

end Engine

end MemoryArbiter
