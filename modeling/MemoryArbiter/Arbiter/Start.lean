import MemoryArbiter.Arbiter.Clock
import MemoryArbiter.Config.Basic

/-! # Starting an arbiter

The arbiter, its monitors and its sweeps are made as the configuration says.
-/

namespace MemoryArbiter

variable {κ : Type} [Kernel κ]

/-- An arbiter over `kernel` with the tunables of a configuration (`start_services`). -/
def Config.start (c : Config) (kernel : κ) : Arbiter κ :=
  .new c.settings c.makeKiller c.runtime.queueCapacity kernel

def Arbiter.monitorBy (a : Arbiter κ) (c : Config) : Arbiter κ :=
  a.startMonitor c.monitor c.killer.pollInterval

def Arbiter.sweepBy (a : Arbiter κ) (c : Config) : Arbiter κ :=
  if c.runtime.sweepInterval = 0 then a else a.startSweeps (c.runtime.sweepInterval * 1000)

end MemoryArbiter
