import MemoryArbiter.TrackedProcess

/-! # The priority rules of a single process

The rules act on the level of a process.  A signal only raises importance while it is asserted.
When it ends, the level falls back to `Level.background` only if it still is exactly the floor
that the signal imposed, so that an independent, stricter level is never disturbed.
-/

namespace MemoryArbiter

namespace TrackedProcess

/-- Make `p` at least as important as `floor` (`raise_to`). -/
def liftTo (p : TrackedProcess) (floor : Int) : TrackedProcess :=
  if p.level > floor then { p with level := floor } else p

/-- Let go of `floor` (`revert_from`). -/
def letGo (p : TrackedProcess) (floor : Int) : TrackedProcess :=
  if p.level = floor then { p with level := Level.background } else p

/-- Raise `p` to `floor` while `asserted`. -/
def holdAt (p : TrackedProcess) (asserted : Bool) (floor : Int) : TrackedProcess :=
  if asserted then p.liftTo floor else p

/-- Raise `p` to the level at which its binding holds it. -/
def holdBinding (p : TrackedProcess) : TrackedProcess :=
  match p.signals.binding with
  | some b => p.liftTo b.floor
  | none => p

/-- The floors, evaluated after every reason (`apply_floors`). -/
def holdAll (p : TrackedProcess) : TrackedProcess :=
  let p := if p.signals.perceived then p.liftTo Level.perceived else p.letGo Level.perceived
  let p := p.holdAt p.signals.suspendDelay Level.suspendDelay
  let p := p.holdAt p.signals.visible Level.visible
  let p := p.holdAt p.signals.distDevice Level.distDevice
  p.holdBinding

/-- What a reason does to the level and the signals, before the floors.  Only
`Reason.bindExtension` looks at `binding`. -/
def react (p : TrackedProcess) (reason : Reason) (binding : Option Binding) : TrackedProcess :=
  let s := p.signals
  match reason with
  | .foreground | .abilityStart =>
    { p with level := Level.foreground, signals := { s with foreground := true } }
  | .background =>
    { p with level := Level.background, signals := { s with foreground := false } }
  | .applicationSuspend =>
    { p with level := Level.suspend, signals := { s with foreground := false } }
  | .freeze => { p with level := Level.frozen, signals := { s with foreground := false } }
  | .unfreeze => p.letGo Level.frozen
  | .suspendDelayStart => { p with signals := { s with suspendDelay := true } }
  | .suspendDelayEnd =>
    { p with signals := { s with suspendDelay := false } }.letGo Level.suspendDelay
  | .backgroundRunningStart => { p with signals := { s with backgroundTask := true } }
  | .backgroundRunningEnd => { p with signals := { s with backgroundTask := false } }
  | .eventStart => { p with signals := { s with shortEvent := true } }
  | .eventEnd => { p with signals := { s with shortEvent := false } }
  | .dataAbilityStart => { p with signals := { s with dataAbility := true } }
  | .dataAbilityEnd => { p with signals := { s with dataAbility := false } }
  | .visible => { p with signals := { s with visible := true } }
  | .unVisible => { p with signals := { s with visible := false } }.letGo Level.visible
  | .distDeviceConnected => { p with signals := { s with distDevice := true } }
  | .distDeviceDisconnected =>
    { p with signals := { s with distDevice := false } }.letGo Level.distDevice
  | .bindExtension => { p with signals := { s with binding := binding } }
  | .unbindExtension =>
    match s.binding with
    | some old => { p with signals := { s with binding := none } }.letGo old.floor
    | none => p
  | .createProcess | .processReady | .processTerminated | .osAccountChanged => p

/-- Apply one reason and evaluate the floors again (`apply`). -/
def respond (p : TrackedProcess) (reason : Reason) (binding : Option Binding) : TrackedProcess :=
  (p.react reason binding).holdAll

end TrackedProcess

end MemoryArbiter
