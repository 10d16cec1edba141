import MemoryArbiter.Rules

/-! # What the rules look at

The rules set the signals of a process once, by the reason; the floors only move its level.  None of
them looks at the priority.
-/

namespace MemoryArbiter

namespace TrackedProcess

/-! ### The floors leave the signals alone -/

@[simp] theorem liftTo_signals (p : TrackedProcess) (floor : Int) :
    (p.liftTo floor).signals = p.signals := by
  unfold liftTo
  split <;> rfl

@[simp] theorem letGo_signals (p : TrackedProcess) (floor : Int) :
    (p.letGo floor).signals = p.signals := by
  unfold letGo
  split <;> rfl

@[simp] theorem holdAt_signals (p : TrackedProcess) (asserted : Bool) (floor : Int) :
    (p.holdAt asserted floor).signals = p.signals := by
  unfold holdAt
  split <;> simp

@[simp] theorem holdBinding_signals (p : TrackedProcess) : p.holdBinding.signals = p.signals := by
  unfold holdBinding
  split <;> simp

@[simp] theorem holdAll_signals (p : TrackedProcess) : p.holdAll.signals = p.signals := by
  unfold holdAll
  simp only [holdBinding_signals, holdAt_signals]
  split <;> simp

/-! ### Without the priority -/

def unpriced (p : TrackedProcess) : TrackedProcess := { p with priority := 0 }

@[simp] theorem unpriced_signals (p : TrackedProcess) : p.unpriced.signals = p.signals := rfl

theorem unpriced_liftTo (p : TrackedProcess) (floor : Int) :
    (p.liftTo floor).unpriced = p.unpriced.liftTo floor := by
  unfold liftTo unpriced
  split <;> rfl

theorem unpriced_letGo (p : TrackedProcess) (floor : Int) :
    (p.letGo floor).unpriced = p.unpriced.letGo floor := by
  unfold letGo unpriced
  split <;> rfl

theorem unpriced_holdAt (p : TrackedProcess) (asserted : Bool) (floor : Int) :
    (p.holdAt asserted floor).unpriced = p.unpriced.holdAt asserted floor := by
  unfold holdAt
  split
  · exact p.unpriced_liftTo floor
  · rfl

theorem unpriced_holdBinding (p : TrackedProcess) :
    p.holdBinding.unpriced = p.unpriced.holdBinding := by
  unfold holdBinding
  rw [unpriced_signals]
  split
  · exact p.unpriced_liftTo _
  · rfl

theorem unpriced_holdAll (p : TrackedProcess) : p.holdAll.unpriced = p.unpriced.holdAll := by
  unfold holdAll
  cases hp : p.signals.perceived <;>
    simp [hp, unpriced_holdBinding, unpriced_holdAt, unpriced_liftTo, unpriced_letGo]

theorem unpriced_react (p : TrackedProcess) (reason : Reason) (binding : Option Binding) :
    (p.react reason binding).unpriced = p.unpriced.react reason binding := by
  cases reason with
  | unfreeze | suspendDelayEnd | unVisible | distDeviceDisconnected => exact unpriced_letGo _ _
  | unbindExtension =>
    unfold react
    simp only [unpriced_signals]
    split
    · exact unpriced_letGo _ _
    · rfl
  | _ => rfl

theorem unpriced_respond (p : TrackedProcess) (reason : Reason) (binding : Option Binding) :
    (p.respond reason binding).unpriced = p.unpriced.respond reason binding := by
  unfold respond
  rw [unpriced_holdAll, unpriced_react]

end TrackedProcess

end MemoryArbiter
