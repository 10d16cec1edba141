import MemoryArbiter.Engine.Consistency
import MemoryArbiter.Engine.Step
import MemoryArbiter.Kernel.Basic
import MemoryArbiter.Killer.Roster
import MemoryArbiter.Notice

/-! # The priority task

The task (`Worker`) owns the engine and the grace timers and handles one request at a time (`handle`).
After each step of the engine it publishes the changes and performs the effects: scores go to the
kernel, timers are armed and cancelled.  A timer that fires only sends a request back; the engine
decides by its token whether it still counts.
-/

namespace MemoryArbiter

/-- A grace timer.  It stays in the table until its request is accepted, or until it is replaced or
cancelled. -/
structure ArmedTimer where
  token : Nat
  /-- When it fires, in milliseconds. -/
  due : Nat
  fired : Bool := false
  deriving DecidableEq, Repr, Inhabited

structure PriorityTask where
  engine : Engine
  /-- At most one timer for each pid. -/
  timers : Table Int ArmedTimer := ∅
  deriving DecidableEq

structure Handled (κ α : Type) where
  task : PriorityTask
  kernel : κ
  notices : List Notice := []
  reply : α

namespace PriorityTask

section

variable {κ : Type} [Kernel κ]

/-- Perform one effect at the time `now`.  A score that cannot be written is passed over. -/
def perform (now : Nat) (s : PriorityTask × κ) : Effect → PriorityTask × κ
  | .writeScore pid priority => (s.1, (Kernel.writeScore s.2 pid priority).2)
  | .armTimer pid token delay =>
    ({ s.1 with timers := s.1.timers.insert pid { token, due := now + delay } }, s.2)
  | .cancelTimer pid => ({ s.1 with timers := s.1.timers.erase pid }, s.2)

def performAll (now : Nat) (effects : List Effect) (s : PriorityTask × κ) : PriorityTask × κ :=
  effects.foldl (perform now) s

/-- Complete an accepted step of the engine, after `first` has been published (`finish`). -/
def finish {α : Type} (t : PriorityTask) (now : Nat) (kernel : κ) (first : List Notice)
    (applied : StepReport) (reply : α) : Handled κ α :=
  let s := performAll now applied.effects (t, kernel)
  { task := s.1
    kernel := s.2
    notices := first ++ applied.changes.map Change.notice
    reply := reply }

def answer {α : Type} (t : PriorityTask) (kernel : κ) (reply : α) : Handled κ α :=
  { task := t, kernel := kernel, reply := reply }

/-- The notice of a switch from `previous`, if there is a current account (`publish_switch`). -/
def switchNotice (previous current : Option Int) : List Notice :=
  current.toList.map (.accountSwitched previous)

def update (t : PriorityTask) (now : Nat) (kernel : κ) (ev : Event) : Handled κ Bool :=
  match t.engine.update ev with
  | (engine, .ok applied) =>
    let first :=
      if ev.reason = .osAccountChanged then switchNotice t.engine.current engine.current else []
    finish { t with engine } now kernel first applied true
  | (engine, .error _) => { t with engine }.answer kernel false

def switchTo (t : PriorityTask) (now : Nat) (kernel : κ) (account : Int) : Handled κ Bool :=
  match t.engine.switchTo account with
  | (engine, .ok applied) =>
    finish { t with engine } now kernel (switchNotice t.engine.current (some account)) applied true
  | (engine, .error _) => { t with engine }.answer kernel false

/-- Drop the processes that are not among `live`; the answer is the number of bundles changed. -/
def retain (t : PriorityTask) (now : Nat) (kernel : κ) (live : List Int) : Handled κ Nat :=
  let step := t.engine.retain live
  finish { t with engine := step.1 } now kernel [] step.2 step.2.changes.length

/-- Take up the request of a timer that has fired. -/
def timerFired (t : PriorityTask) (now : Nat) (kernel : κ) (pid : Int) (token : Nat) :
    Handled κ Unit :=
  match t.engine.expireBoost pid token with
  | (engine, .ok applied) =>
    finish { t with engine, timers := t.timers.erase pid } now kernel [] applied ()
  | (engine, .error _) => { t with engine }.answer kernel ()

end

/-- Note that a bundle has been killed; `false` if it is gone already. -/
def noteKilled (t : PriorityTask) (uid : Int) : PriorityTask × Bool :=
  let step := t.engine.noteKilled uid
  ({ t with engine := step.1 }, step.2)

end PriorityTask

/-- The killer reads the rows of the priority task, as long as that runs. -/
instance : Roster (Option PriorityTask) where
  rows
    | some t => .ok t.engine.snapshot
    | none => .error .priorities
  mark
    | some t, uid => (.ok (t.noteKilled uid).2, some (t.noteKilled uid).1)
    | none, _ => (.error .priorities, none)

end MemoryArbiter
