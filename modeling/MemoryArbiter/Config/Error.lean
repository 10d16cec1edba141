import MemoryArbiter.Config.Defect
import MemoryArbiter.Text.Quoted

/-! # Errors of the configuration
-/

namespace MemoryArbiter

def ConfigDefect.message : ConfigDefect → String
  | noTiers => "kill_tiers must contain at least one tier"
  | bufferOrder first second =>
    s!"kill_tiers buffer_kb must be strictly ascending ({first} >= {second})"
  | priorityOrder first second =>
    s!"kill_tiers min_priority must be strictly ascending ({first} >= {second})"
  | pinnedTier => "kill_tiers min_priority must be above system priority"
  | negativeShift => "account.priority_shift must be >= 0"
  | noKills => "killer.max_kills_per_pass must be >= 1"
  | noPollInterval => "killer.poll_interval_ms must be > 0"
  | noQueueCapacity => "runtime.queue_capacity must be >= 1"
  | shiftVariable value =>
    "RECLAIMD_PRIORITY_SHIFT must be an integer, got " ++ Text.quoted value

inductive ConfigError
  | unreadable (path reason : String)
  | unparsable (path : String)
  | invalid (defect : ConfigDefect)
  deriving DecidableEq, Repr, Inhabited

def ConfigError.message : ConfigError → String
  | unreadable path reason => s!"Failed to read config file at {path}: {reason}"
  | unparsable path => s!"Failed to parse config file at {path}: not a configuration"
  | invalid defect => "Configuration validation failed: " ++ defect.message

end MemoryArbiter
