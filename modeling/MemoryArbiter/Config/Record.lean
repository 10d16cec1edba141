import MemoryArbiter.Config.Basic
import MemoryArbiter.Toml.Basic

/-! # Configurations in documents

A configuration is a record of seven members, some of which are records themselves.  Every member
may be left out, except the two of a tier.
-/

namespace MemoryArbiter

open Document

section

variable {ν : Type} [Document ν]

def AccountSection.ofDocument? (n : ν) : Option AccountSection :=
  match members? ["priority_shift", "clamp_shifted_priority", "foreground_account"] n with
  | some [shift, clamp, account] => do
    let priorityShift ← optional 50 integer? shift
    let clampShiftedPriority ← optional false truth? clamp
    let foregroundAccount ← optional 100 int32? account
    if priorityShift_fits : FitsInt32 priorityShift then
      return { priorityShift, priorityShift_fits, clampShiftedPriority, foregroundAccount }
    else none
  | _ => none

def KillerSection.ofDocument? (n : ν) : Option KillerSection :=
  match members?
    ["enabled", "max_kills_per_pass", "poll_interval_ms", "psi_some_avg10_threshold"] n with
  | some [enabled, maxKills, pollInterval, threshold] => do
    let enabled ← optional true truth? enabled
    let maxKillsPerPass ← optional 3 nat64? maxKills
    let pollInterval ← optional 1000 nat64? pollInterval
    let stallThreshold ← optional (.ofInt 10) real? threshold
    return { enabled, maxKillsPerPass, pollInterval, stallThreshold }
  | _ => none

/-- The grace period of a record that holds it alone. -/
def gracePeriodOfDocument? (n : ν) : Option Nat :=
  match members? ["grace_period_ms"] n with
  | some [gracePeriod] => optional 20000 nat64? gracePeriod
  | _ => none

/-- The mount point of a record that holds it alone. -/
def procRootOfDocument? (n : ν) : Option String :=
  match members? ["proc_root"] n with
  | some [procRoot] => optional "/proc" text? procRoot
  | _ => none

def RuntimeSection.ofDocument? (n : ν) : Option RuntimeSection :=
  match members? ["queue_capacity", "reconcile_interval_secs"] n with
  | some [capacity, interval] => do
    let queueCapacity ← optional 256 nat64? capacity
    let sweepInterval ← optional 30 nat64? interval
    return { queueCapacity, sweepInterval }
  | _ => none

def Config.memberNames : List String :=
  ["pinned_bundles", "account", "killer", "grace", "kernel", "runtime", "kill_tiers"]

def Config.ofDocument? (n : ν) : Option Config :=
  match members? Config.memberNames n with
  | some [pinned, account, killer, grace, kernel, runtime, tiers] => do
    let default : Config := {}
    let pinnedBundles ← optional default.pinnedBundles (list? text?) pinned
    let account ← optional AccountSection.default AccountSection.ofDocument? account
    let killer ← optional {} KillerSection.ofDocument? killer
    let gracePeriod ← optional default.gracePeriod gracePeriodOfDocument? grace
    let procRoot ← optional default.procRoot procRootOfDocument? kernel
    let runtime ← optional {} RuntimeSection.ofDocument? runtime
    let killTiers ← optional TierTable.default (list? Tier.ofDocument?) tiers
    return { pinnedBundles, account, killer, gracePeriod, procRoot, runtime, killTiers }
  | _ => none

end

def Config.toToml (c : Config) : Toml.Members :=
  let nat (n : Nat) : Toml := .integer n
  [("pinned_bundles", .array false (c.pinnedBundles.map .text)),
    ("account", .table .header
      [("priority_shift", .integer c.account.priorityShift),
        ("clamp_shifted_priority", .bool c.account.clampShiftedPriority),
        ("foreground_account", .integer c.account.foregroundAccount)]),
    ("killer", .table .header
      [("enabled", .bool c.killer.enabled),
        ("max_kills_per_pass", nat c.killer.maxKillsPerPass),
        ("poll_interval_ms", nat c.killer.pollInterval),
        ("psi_some_avg10_threshold", .real c.killer.stallThreshold)]),
    ("grace", .table .header [("grace_period_ms", nat c.gracePeriod)]),
    ("kernel", .table .header [("proc_root", .text c.procRoot)]),
    ("runtime", .table .header
      [("queue_capacity", nat c.runtime.queueCapacity),
        ("reconcile_interval_secs", nat c.runtime.sweepInterval)]),
    ("kill_tiers", .array true (c.killTiers.map fun t => .table .header
      [("buffer_kb", nat t.bufferKb), ("min_priority", .integer t.minPriority)]))]

end MemoryArbiter
