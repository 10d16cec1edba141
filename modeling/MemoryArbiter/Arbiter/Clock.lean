import MemoryArbiter.Arbiter.Basic

/-! # The clock

When the clock moves, everything that falls due by then happens at its own time, earliest first.
Nothing that falls due arms another timer, so all that will happen can be listed beforehand; a timer
that has been cancelled or replaced in between is passed over.
-/

namespace MemoryArbiter

/-- Something that falls due. -/
inductive Alarm
  | boost (pid : Int) (token : Nat)
  | sample (m : Monitor)
  | sweep
  deriving DecidableEq, Repr, Inhabited

/-- The times up to and including `limit` at which something is due. -/
def Periodic.times {α : Type} (p : Periodic α) (limit : Nat) : List Nat :=
  if limit < p.next then []
  else (List.range ((limit - p.next) / p.period + 1)).map fun i => p.next + i * p.period

def Periodic.after {α : Type} (p : Periodic α) (limit : Nat) : Periodic α :=
  { p with next := p.next + (p.times limit).length * p.period }

/-- The timers that have not fired and are due by `limit`. -/
def PriorityTask.dueTimers (t : PriorityTask) (limit : Nat) : List (Nat × Alarm) :=
  (t.timers.entries.filter fun e => !e.2.fired && e.2.due ≤ limit).map fun e =>
    (e.2.due, .boost e.1 e.2.token)

/-- Note that the timer of `pid` fires, if it is still the one with `token`. -/
def PriorityTask.fire? (t : PriorityTask) (pid : Int) (token : Nat) : Option PriorityTask :=
  match t.timers.get? pid with
  | some timer =>
    if timer.token = token ∧ timer.fired = false then
      some { t with timers := t.timers.insert pid { timer with fired := true } }
    else none
  | none => none

namespace Arbiter

variable {κ : Type} [Kernel κ]

def alarms (a : Arbiter κ) (limit : Nat) : List (Nat × Alarm) :=
  let timers := (a.priority.map fun t => t.dueTimers limit).getD []
  let samples := a.monitors.flatMap fun p => (p.times limit).map fun n => (n, .sample p.action)
  let sweeps := a.sweeps.flatMap fun p => (p.times limit).map fun n => (n, .sweep)
  (timers ++ samples ++ sweeps).mergeSort fun x y => x.1 ≤ y.1

def ring (a : Arbiter κ) : Alarm → Arbiter κ
  | .boost pid token =>
    match a.priority.bind fun t => t.fire? pid token with
    | some t => (timerFired { a with priority := some t } pid token).1
    | none => a
  | .sample m => a.watch m
  | .sweep => a.sweep

def advance (a : Arbiter κ) (ms : Nat) : Arbiter κ :=
  let limit := a.now + ms
  let a' := (a.alarms limit).foldl (fun a alarm => { a with now := alarm.1 }.ring alarm.2) a
  { a' with
    now := limit
    monitors := a.monitors.map fun p => p.after limit
    sweeps := a.sweeps.map fun p => p.after limit }

end Arbiter

end MemoryArbiter
