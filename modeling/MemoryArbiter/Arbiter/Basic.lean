import MemoryArbiter.Killer.Monitor
import MemoryArbiter.Killer.Pass
import MemoryArbiter.Killer.Queue
import MemoryArbiter.PriorityTask

/-! # The running arbiter

The priority task (`PriorityService`) and the killer (`KillerService`) work side by side on one kernel;
requests to either come from outside, from the pressure monitors and from the clock.  Whatever one
request sets off is done before the next one is taken up.  A task that has stopped answers no more,
and the other one goes on without it.
-/

namespace MemoryArbiter

structure Periodic (α : Type) where
  /-- The next time it is due, in milliseconds. -/
  next : Nat
  period : Nat
  action : α
  deriving DecidableEq, Repr, Inhabited

structure Arbiter (κ : Type) where
  kernel : κ
  killer : Killer
  /-- `none` once the task has stopped. -/
  priority : Option PriorityTask
  /-- `none` once the killer has stopped. -/
  passes : Option PassQueue
  now : Nat := 0
  monitors : List (Periodic Monitor) := []
  /-- Sweeps compare the tracked processes with the live ones. -/
  sweeps : List (Periodic Unit) := []
  notices : List Notice := []

namespace Arbiter

variable {κ : Type} [Kernel κ]

def new (settings : Settings) (killer : Killer) (capacity : Nat) (kernel : κ) : Arbiter κ where
  kernel := kernel
  killer := killer
  priority := some { engine := .new settings }
  passes := some (.new capacity)

/-! ### Requests to the priority task -/

/-- Take over what handling a request led to. -/
def absorb {α : Type} (a : Arbiter κ) (h : Handled κ α) : Arbiter κ × Except ClosedQueue α :=
  ({ a with
      kernel := h.kernel
      priority := some h.task
      notices := a.notices ++ h.notices },
    .ok h.reply)

def call {α : Type} (a : Arbiter κ) (handle : PriorityTask → Handled κ α) :
    Arbiter κ × Except ClosedQueue α :=
  match a.priority with
  | some t => a.absorb (handle t)
  | none => (a, .error .priorities)

def update (a : Arbiter κ) (ev : Event) : Arbiter κ × Except ClosedQueue Bool :=
  a.call fun t => t.update a.now a.kernel ev

def switchTo (a : Arbiter κ) (account : Int) : Arbiter κ × Except ClosedQueue Bool :=
  a.call fun t => t.switchTo a.now a.kernel account

def retain (a : Arbiter κ) (live : List Int) : Arbiter κ × Except ClosedQueue Nat :=
  a.call fun t => t.retain a.now a.kernel live

def timerFired (a : Arbiter κ) (pid : Int) (token : Nat) : Arbiter κ × Except ClosedQueue Unit :=
  a.call fun t => t.timerFired a.now a.kernel pid token

def mark (a : Arbiter κ) (uid : Int) : Arbiter κ × Except ClosedQueue Bool :=
  let answer := Roster.mark a.priority uid
  ({ a with priority := answer.2 }, answer.1)

def snapshot (a : Arbiter κ) : Except ClosedQueue (List BundleRow) :=
  Roster.rows a.priority

def defect? (a : Arbiter κ) : Except ClosedQueue (Option String) :=
  match a.priority with
  | some t => .ok t.engine.defect?
  | none => .error .priorities

def stopPriority (a : Arbiter κ) : Arbiter κ := { a with priority := none }

/-! ### Requests to the killer -/

def runPass (a : Arbiter κ) : Arbiter κ × KillReport :=
  let pass := a.killer.pass a.kernel a.priority
  ({ a with
      kernel := pass.1.kernel
      priority := pass.1.roster
      notices := a.notices ++ pass.2 },
    pass.1.report)

def serve (a : Arbiter κ) : Arbiter κ × Option KillReport :=
  match a.passes.bind PassQueue.receive? with
  | none => (a, none)
  | some (r, q) =>
    let done := { a with passes := some (q.lower r) }.runPass
    (done.1, some done.2)

/-- Serve the requests of the queue; the report is that of the last pass. -/
def serveAll (a : Arbiter κ) : Arbiter κ × Option KillReport :=
  ((a.passes.map PassQueue.waiting).getD []).foldl (fun s _ => s.1.serve) (a, none)

/-- Ask the killer for a pass `times` times, with nothing in between. -/
def signal (a : Arbiter κ) (times : Nat) : Arbiter κ :=
  let q := a.passes.map fun q => times.fold (fun _ _ q => q.signal) q
  (serveAll { a with passes := q }).1

def pass (a : Arbiter κ) : Arbiter κ × Except ClosedQueue KillReport :=
  match a.passes with
  | none => (a, .error .killer)
  | some q =>
    match q.request? with
    | none => (a, .error .killer)
    | some q =>
      let served := serveAll { a with passes := some q }
      (served.1, .ok (served.2.getD {}))

def stopKiller (a : Arbiter κ) : Arbiter κ := { a with passes := none }

/-! ### Monitors and sweeps -/

def watch (a : Arbiter κ) (m : Monitor) : Arbiter κ :=
  let sample := m.sample a.kernel
  let a := { a with kernel := sample.2 }
  if sample.1 then a.signal 1 else a

/-- Compare the tracked processes with the live ones, if these can be listed (`spawn_reconciler`). -/
def sweep (a : Arbiter κ) : Arbiter κ :=
  match Kernel.livePids a.kernel with
  | .ok live => (a.retain live).1
  | .error _ => a

/-- Start a monitor: it samples now and then after every `period`.  Without a period it does
nothing. -/
def startMonitor (a : Arbiter κ) (m : Monitor) (period : Nat) : Arbiter κ :=
  if period = 0 then a
  else
    let a := a.watch m
    { a with monitors := a.monitors ++ [{ next := a.now + period, period, action := m }] }

/-- Start sweeping: the first sweep is due after one `period`. -/
def startSweeps (a : Arbiter κ) (period : Nat) : Arbiter κ :=
  { a with sweeps := a.sweeps ++ [{ next := a.now + period, period, action := () }] }

end Arbiter

end MemoryArbiter
