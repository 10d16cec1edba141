/-! # Reasons

Why the priority of a process may have to change.  A reason is printed by its name (`as_str`).
Records call it by a name that is derived from its identifier, and `Reason.ofName?` reads exactly
those; the two are the same.
-/

namespace MemoryArbiter

inductive Reason
  | createProcess
  | processReady
  | processTerminated
  | foreground
  | background
  | applicationSuspend
  | suspendDelayStart
  | suspendDelayEnd
  | backgroundRunningStart
  | backgroundRunningEnd
  | eventStart
  | eventEnd
  | dataAbilityStart
  | dataAbilityEnd
  | visible
  | unVisible
  | distDeviceConnected
  | distDeviceDisconnected
  | bindExtension
  | unbindExtension
  | abilityStart
  | freeze
  | unfreeze
  /-- Another account comes to the foreground; the event's uid is any uid of it. -/
  | osAccountChanged
  deriving DecidableEq, Repr, Inhabited

namespace Reason

def all : List Reason :=
  [createProcess, processReady, processTerminated, foreground, background, applicationSuspend,
    suspendDelayStart, suspendDelayEnd, backgroundRunningStart, backgroundRunningEnd, eventStart,
    eventEnd, dataAbilityStart, dataAbilityEnd, visible, unVisible, distDeviceConnected,
    distDeviceDisconnected, bindExtension, unbindExtension, abilityStart, freeze, unfreeze,
    osAccountChanged]

def name : Reason → String
  | createProcess => "CREATE_PROCESS"
  | processReady => "PROCESS_READY"
  | processTerminated => "PROCESS_TERMINATED"
  | foreground => "FOREGROUND"
  | background => "BACKGROUND"
  | applicationSuspend => "APPLICATION_SUSPEND"
  | suspendDelayStart => "SUSPEND_DELAY_START"
  | suspendDelayEnd => "SUSPEND_DELAY_END"
  | backgroundRunningStart => "BACKGROUND_RUNNING_START"
  | backgroundRunningEnd => "BACKGROUND_RUNNING_END"
  | eventStart => "EVENT_START"
  | eventEnd => "EVENT_END"
  | dataAbilityStart => "DATA_ABILITY_START"
  | dataAbilityEnd => "DATA_ABILITY_END"
  | visible => "VISIBLE"
  | unVisible => "UN_VISIBLE"
  | distDeviceConnected => "DIST_DEVICE_CONNECTED"
  | distDeviceDisconnected => "DIST_DEVICE_DISCONNECTED"
  | bindExtension => "BIND_EXTENSION"
  | unbindExtension => "UNBIND_EXTENSION"
  | abilityStart => "ABILITY_START"
  | freeze => "FREEZE"
  | unfreeze => "UNFREEZE"
  | osAccountChanged => "OS_ACCOUNT_CHANGED"

def identifier : Reason → String
  | createProcess => "CreateProcess"
  | processReady => "ProcessReady"
  | processTerminated => "ProcessTerminated"
  | foreground => "Foreground"
  | background => "Background"
  | applicationSuspend => "ApplicationSuspend"
  | suspendDelayStart => "SuspendDelayStart"
  | suspendDelayEnd => "SuspendDelayEnd"
  | backgroundRunningStart => "BackgroundRunningStart"
  | backgroundRunningEnd => "BackgroundRunningEnd"
  | eventStart => "EventStart"
  | eventEnd => "EventEnd"
  | dataAbilityStart => "DataAbilityStart"
  | dataAbilityEnd => "DataAbilityEnd"
  | visible => "Visible"
  | unVisible => "UnVisible"
  | distDeviceConnected => "DistDeviceConnected"
  | distDeviceDisconnected => "DistDeviceDisconnected"
  | bindExtension => "BindExtension"
  | unbindExtension => "UnbindExtension"
  | abilityStart => "AbilityStart"
  | freeze => "Freeze"
  | unfreeze => "Unfreeze"
  | osAccountChanged => "OsAccountChanged"

/-- In capitals, with an underscore in front of each capital but the first. -/
def screamingSnake (identifier : String) : String :=
  match identifier.toList with
  | [] => ""
  | c :: cs =>
    String.ofList (c.toUpper :: cs.flatMap fun c => if c.isUpper then ['_', c] else [c.toUpper])

/-- The name of the reason in records. -/
def recordName (r : Reason) : String := screamingSnake r.identifier

theorem recordName_eq_name (r : Reason) : r.recordName = r.name := by
  cases r <;> rfl

def ofName? (s : String) : Option Reason := all.find? fun r => r.recordName == s

theorem ofName?_name (r : Reason) : ofName? r.name = some r := by
  simp only [ofName?, recordName_eq_name]
  cases r <;> decide

/-- Boosts that are taken back after the grace period, unless a later event replaces them
(`arms_grace_timer`). -/
def isBoost : Reason → Bool
  | abilityStart | visible | distDeviceConnected | bindExtension => true
  | _ => false

/-- The reason that takes a boost back (`grace_revert`). -/
def undo? : Reason → Option Reason
  | abilityStart => some background
  | visible => some unVisible
  | distDeviceConnected => some distDeviceDisconnected
  | bindExtension => some unbindExtension
  | _ => none

/-- Reasons that act on the hierarchy itself and not on a process's signals. -/
def structural : Reason → Bool
  | createProcess | processReady | processTerminated | osAccountChanged => true
  | _ => false

theorem mem_all (r : Reason) : r ∈ all := by
  cases r <;> decide

theorem isBoost_iff (r : Reason) : r.isBoost = true ↔ r.undo?.isSome = true := by
  cases r <;> decide

end Reason

end MemoryArbiter
