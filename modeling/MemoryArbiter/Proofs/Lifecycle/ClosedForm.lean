import MemoryArbiter.Proofs.Lifecycle.Repetition

/-! # The level after one more reason, in closed form

The floors are applied one after the other, and the first of them may push a process away from
`Level.perceived`.  On a process that the floors have left alone before, the outcome is a minimum in
which their order does not show.
-/

namespace MemoryArbiter

/-! ### What a reason stands for -/

/-- The level at which a reason puts a process. -/
def Reason.places? : Reason → Option Int
  | .foreground | .abilityStart => some Level.foreground
  | .background => some Level.background
  | .applicationSuspend => some Level.suspend
  | .freeze => some Level.frozen
  | _ => none

namespace Signals

/-- The least of `level` and the floors. -/
def cap (s : Signals) (level : Int) : Int := s.floors.foldl min level

theorem cap_eq_iff {s : Signals} {level n : Int} : s.cap level = n ↔
    (n = level ∨ n ∈ s.floors) ∧ n ≤ level ∧ ∀ f ∈ s.floors, n ≤ f := by
  have hmin : (level :: s.floors).min? = some (s.cap level) := List.min?_cons'
  have hiff : s.cap level = n ↔ (level :: s.floors).min? = some n := by
    rw [hmin, Option.some.injEq]
  rw [hiff, List.min?_eq_some_iff, List.mem_cons, List.forall_mem_cons]

theorem cap_eq_self {s : Signals} {level : Int} (h : ∀ f ∈ s.floors, level ≤ f) :
    s.cap level = level :=
  cap_eq_iff.mpr ⟨.inl rfl, Int.le_refl _, h⟩

end Signals

namespace TrackedProcess

variable {p q : TrackedProcess} {s : Signals} {reason : Reason} {binding : Option Binding}
  {floor level : Int}

/-- The floor that a reason asserts for `p`. -/
def asserts? (p : TrackedProcess) (binding : Option Binding) : Reason → Option Int
  | .suspendDelayStart => some Level.suspendDelay
  | .backgroundRunningStart | .eventStart | .dataAbilityStart => some Level.perceived
  | .visible => some Level.visible
  | .distDeviceConnected => some Level.distDevice
  | .bindExtension => if p.signals.binding = none then binding.map Binding.floor else none
  | _ => none

/-- The floor of which a reason lets go, where `left` are the signals after it. -/
def releases? (p : TrackedProcess) (left : Signals) : Reason → Option Int
  | .suspendDelayEnd => some Level.suspendDelay
  | .backgroundRunningEnd | .eventEnd | .dataAbilityEnd =>
    if left.perceived then none else some Level.perceived
  | .unVisible => some Level.visible
  | .distDeviceDisconnected => some Level.distDevice
  | .unbindExtension => p.signals.binding.map Binding.floor
  | _ => none

/-- A binding takes the place of another one. -/
def Rebinds (p : TrackedProcess) (reason : Reason) : Prop :=
  reason = .bindExtension ∧ p.signals.binding ≠ none

theorem only_ends (p : TrackedProcess) (hr : reason.ends = true) (binding : Option Binding) :
    reason.places? = none ∧ p.asserts? binding reason = none ∧ reason ≠ .unfreeze ∧
      ¬ p.Rebinds reason := by
  cases reason <;> simp_all [Reason.ends, Reason.places?, asserts?, Rebinds]

/-- `q` is at the level that the closed form of the rules gives for `p` and `reason`. -/
structure ClosedForm (p q : TrackedProcess) (reason : Reason) (binding : Option Binding) : Prop where
  placed : ∀ level, reason.places? = some level → q.level = q.signals.cap level
  started : ∀ floor, p.asserts? binding reason = some floor → q.level = min p.level floor
  ended : ∀ floor, p.releases? q.signals reason = some floor →
    q.level = if p.level = floor then q.signals.cap Level.background else p.level
  thawed : reason = .unfreeze →
    q.level = if p.level = Level.frozen then q.signals.cap Level.background else p.level
  kept : reason.places? = none → p.asserts? binding reason = none →
    p.releases? q.signals reason = none → reason ≠ .unfreeze → ¬ p.Rebinds reason →
    q.level = p.level
  /-- A new binding may be behind `Level.perceived`, where the old one held the process. -/
  rebound : p.Rebinds reason → q.level = q.signals.cap
    (if q.signals.perceived = false ∧ p.level = Level.perceived then Level.background else p.level)
  start_le : ∀ floor, p.asserts? binding reason = some floor → q.level ≤ p.level
  undisturbed : reason.ends = true → p.releases? q.signals reason ≠ some p.level →
    q.level = p.level

/-! ### The floors as a minimum -/

theorem holdAll_level_eq_cap (h : p.level = Level.perceived → p.level ∈ p.signals.floors) :
    p.holdAll.level = p.signals.cap p.level := by
  have hle := p.level_le_unperceived
  obtain ⟨hcases, hstart, hfloors⟩ := p.holdAll_level_spec
  by_cases hmoved : p.unperceived = p.level
  · rw [hmoved] at hcases hstart
    exact (Signals.cap_eq_iff.mpr ⟨hcases, hstart, hfloors⟩).symm
  · -- the floor that is its level brings it back
    have hback : p.level ∈ p.signals.floors := by
      apply h
      apply Decidable.byContradiction
      intro hne
      exact hmoved (if_neg fun hp => hne hp.2)
    have hbound := hfloors _ hback
    have hmem : p.holdAll.level = p.level ∨ p.holdAll.level ∈ p.signals.floors :=
      .inr (hcases.resolve_left fun hl => hmoved (by omega))
    exact (Signals.cap_eq_iff.mpr ⟨hmem, hbound, hfloors⟩).symm

theorem Landed.mem_floors (h : p.Landed) (hl : p.level = Level.perceived) :
    p.level ∈ p.signals.floors := by
  rcases h.perceived with hstart | hmem
  · have hon : p.signals.perceived = true := by
      apply Decidable.byContradiction
      intro hoff
      have hback : p.unperceived = Level.background := if_pos ⟨Bool.eq_false_iff.mpr hoff, hl⟩
      rw [hstart, hback] at hl
      exact absurd hl (by decide)
    exact Signals.mem_floors.mpr (.inl ⟨hon, hl⟩)
  · exact hmem

/-- Where a reason puts a process, only the floors count. -/
theorem holdAll_placed (hne : level ≠ Level.perceived) :
    { p with level := level, signals := s }.holdAll.level = s.cap level :=
  holdAll_level_eq_cap fun hl => absurd hl hne

theorem Landed.holdAll_started (h : p.Landed)
    (hs : ∀ f, f ∈ s.floors ↔ f = floor ∨ f ∈ p.signals.floors) :
    { p with signals := s }.holdAll.level = min p.level floor := by
  have hcap : { p with signals := s }.holdAll.level = s.cap p.level :=
    holdAll_level_eq_cap fun hl => (hs _).mpr (.inr (h.mem_floors hl))
  rw [hcap, Signals.cap_eq_iff]
  refine ⟨?_, Int.min_le_left .., fun f hf => ?_⟩
  · rcases Int.le_total p.level floor with hle | hle
    · exact .inl (Int.min_eq_left hle)
    · exact .inr ((hs _).mpr (.inl (Int.min_eq_right hle)))
  · rcases (hs f).mp hf with rfl | hf
    · exact Int.min_le_right ..
    · have hheld := h.held f hf
      omega

theorem Landed.holdAll_kept (h : p.Landed) (hs : ∀ f, f ∈ s.floors ↔ f ∈ p.signals.floors) :
    { p with signals := s }.holdAll.level = p.level := by
  have hcap : { p with signals := s }.holdAll.level = s.cap p.level :=
    holdAll_level_eq_cap fun hl => (hs _).mpr (h.mem_floors hl)
  rw [hcap]
  exact Signals.cap_eq_self fun f hf => h.held f ((hs f).mp hf)

/-- A floor that is let go of counts only for a process that is exactly there. -/
theorem Landed.holdAll_ended (h : p.Landed) (hleft : ∀ f ∈ s.floors, f ∈ p.signals.floors)
    (hgone : ∀ f ∈ p.signals.floors, f ∈ s.floors ∨ f = floor) :
    ({ p with signals := s }.letGo floor).holdAll.level =
      if p.level = floor then s.cap Level.background else p.level := by
  by_cases hl : p.level = floor
  · have hdown : { p with signals := s }.letGo floor =
        { p with level := Level.background, signals := s } := if_pos hl
    rw [hdown, if_pos hl]
    exact holdAll_placed (by decide)
  · have hstay : { p with signals := s }.letGo floor = { p with signals := s } := if_neg hl
    have hcap : { p with signals := s }.holdAll.level = s.cap p.level :=
      holdAll_level_eq_cap fun hp => (hgone _ (h.mem_floors hp)).resolve_right hl
    rw [hstay, if_neg hl, hcap]
    exact Signals.cap_eq_self fun f hf => h.held f (hleft f hf)

/-- Without a signal for perceived work the floors let go of `Level.perceived` themselves. -/
theorem holdAll_letGo_perceived (hoff : p.signals.perceived = false) :
    (p.letGo Level.perceived).holdAll = p.holdAll := by
  have honce : (p.letGo Level.perceived).letGo Level.perceived = p.letGo Level.perceived :=
    if_neg (letGo_level_ne (by decide))
  unfold holdAll
  simp [hoff, honce]

/-! ### One reason -/

theorem respond_signals (p : TrackedProcess) (reason : Reason) (binding : Option Binding) :
    (p.respond reason binding).signals = (p.react reason binding).signals :=
  holdAll_signals _

theorem respond_placed (hr : reason.places? = some level) :
    (p.respond reason binding).level = (p.respond reason binding).signals.cap level := by
  rw [respond_signals]
  unfold respond
  cases reason <;> cases hr <;> exact holdAll_placed (by decide)

theorem Landed.respond_started (h : p.Landed) (hf : p.asserts? binding reason = some floor) :
    (p.respond reason binding).level = min p.level floor := by
  unfold respond
  cases reason with
  | bindExtension =>
    obtain ⟨hunbound, hbinding⟩ := Option.ite_none_right_eq_some.mp hf
    obtain ⟨new, rfl, rfl⟩ := Option.map_eq_some_iff.mp hbinding
    have hsame : { p.signals with binding := none } = p.signals := by rw [← hunbound]
    refine h.holdAll_started fun f => ?_
    rw [Signals.mem_floors_binding, hsame]
  | suspendDelayStart | backgroundRunningStart | eventStart | dataAbilityStart | visible
  | distDeviceConnected =>
    obtain rfl := Option.some.inj hf
    refine h.holdAll_started fun f => ?_
    rw [Signals.mem_floors, Signals.mem_floors]
    grind [Signals.perceived]
  | _ => cases hf

theorem Landed.respond_ended (h : p.Landed)
    (hf : p.releases? (p.respond reason binding).signals reason = some floor) :
    (p.respond reason binding).level =
      if p.level = floor then (p.respond reason binding).signals.cap Level.background
      else p.level := by
  rw [respond_signals] at hf ⊢
  unfold respond
  cases reason with
  | suspendDelayEnd | unVisible | distDeviceDisconnected =>
    obtain rfl := Option.some.inj hf
    simp only [react, letGo_signals]
    apply h.holdAll_ended <;> intro f hf <;> rw [Signals.mem_floors] at hf ⊢ <;>
      grind [Signals.perceived]
  | backgroundRunningEnd | eventEnd | dataAbilityEnd =>
    obtain ⟨hoff, hfloor⟩ := Option.ite_none_left_eq_some.mp hf
    obtain rfl := Option.some.inj hfloor
    rw [← holdAll_letGo_perceived (Bool.eq_false_iff.mpr hoff)]
    apply h.holdAll_ended <;> intro f hf <;> rw [Signals.mem_floors] at hf ⊢ <;>
      grind [Signals.perceived]
  | unbindExtension =>
    obtain ⟨old, hold, rfl⟩ := Option.map_eq_some_iff.mp hf
    simp only [react, hold, letGo_signals]
    apply h.holdAll_ended <;> intro f hf <;> rw [Signals.mem_floors] at hf ⊢ <;>
      grind [Signals.perceived]
  | _ => cases hf

theorem Landed.respond_unfreeze (h : p.Landed) :
    (p.respond .unfreeze binding).level =
      if p.level = Level.frozen then (p.respond .unfreeze binding).signals.cap Level.background
      else p.level := by
  have hsignals : (p.respond .unfreeze binding).signals = p.signals :=
    (respond_signals _ _ _).trans (letGo_signals _ _)
  rw [hsignals]
  exact h.holdAll_ended (s := p.signals) (fun f hf => hf) fun f hf => .inl hf

theorem Landed.respond_kept (h : p.Landed) (hplace : reason.places? = none)
    (hstart : p.asserts? binding reason = none)
    (hend : p.releases? (p.respond reason binding).signals reason = none)
    (hthaw : reason ≠ .unfreeze) (hbind : ¬ p.Rebinds reason) :
    (p.respond reason binding).level = p.level := by
  rw [respond_signals] at hend
  unfold respond
  cases reason with
  | createProcess | processReady | processTerminated | osAccountChanged =>
    exact congrArg level h.holdAll_eq
  | unfreeze => exact absurd rfl hthaw
  | bindExtension =>
    have hunbound : p.signals.binding = none :=
      Decidable.byContradiction fun hbound => hbind ⟨rfl, hbound⟩
    have hnone : binding = none :=
      Option.map_eq_none_iff.mp ((if_pos hunbound).symm.trans hstart)
    refine h.holdAll_kept fun f => ?_
    rw [hnone, ← hunbound]
  | unbindExtension =>
    have hunbound : p.signals.binding = none := Option.map_eq_none_iff.mp hend
    simp only [react, hunbound]
    exact congrArg level h.holdAll_eq
  | backgroundRunningEnd | eventEnd | dataAbilityEnd =>
    -- another signal for perceived work is still on
    have hon := Decidable.byContradiction fun hoff =>
      Option.some_ne_none _ ((if_neg hoff).symm.trans hend)
    simp only [react, Signals.perceived] at hon
    refine h.holdAll_kept fun f => ?_
    rw [Signals.mem_floors, Signals.mem_floors]
    grind [Signals.perceived]
  | foreground | abilityStart | background | applicationSuspend | freeze => cases hplace
  | suspendDelayStart | backgroundRunningStart | eventStart | dataAbilityStart | visible
  | distDeviceConnected => cases hstart
  | suspendDelayEnd | unVisible | distDeviceDisconnected => cases hend

theorem respond_rebound (hbind : p.Rebinds reason) :
    (p.respond reason binding).level = (p.respond reason binding).signals.cap
      (if (p.respond reason binding).signals.perceived = false ∧ p.level = Level.perceived then
        Level.background else p.level) := by
  obtain ⟨rfl, -⟩ := hbind
  rw [respond_signals]
  exact holdAll_level _

/-- One more reason on a process that the floors do not move. -/
theorem Landed.closedForm (h : p.Landed) (reason : Reason) (binding : Option Binding) :
    p.ClosedForm (p.respond reason binding) reason binding where
  placed _ hr := respond_placed hr
  started _ hf := h.respond_started hf
  ended _ hf := h.respond_ended hf
  thawed hr := by
    subst hr
    exact h.respond_unfreeze
  kept hplace hstart hend hthaw hbind := h.respond_kept hplace hstart hend hthaw hbind
  rebound hbind := respond_rebound hbind
  start_le floor hf := by
    rw [h.respond_started hf]
    exact Int.min_le_left ..
  undisturbed hends hne := by
    cases hrel : p.releases? (p.respond reason binding).signals reason with
    | some floor =>
      rw [h.respond_ended hrel]
      exact if_neg fun hl => hne (by rw [hrel, hl])
    | none =>
      obtain ⟨hplace, hstart, hthaw, hbind⟩ := p.only_ends hends binding
      exact h.respond_kept hplace hstart hrel hthaw hbind

/-! ### Any sequence of reasons -/

theorem landed_start {pid uid : Int} (hlevel : level ≠ Level.perceived) :
    (start pid uid level).Landed := by
  constructor
  · exact fun f hf => nomatch hf
  · exact .inl (if_neg fun hp => hlevel hp.2).symm

theorem landed_foldl (h : p.Landed) (steps : List (Reason × Option Binding)) :
    (steps.foldl (fun p step => p.respond step.1 step.2) p).Landed := by
  induction steps generalizing p with
  | nil => exact h
  | cons step steps ih =>
    apply ih
    exact landed_of_respond rfl rfl

/-- After any reasons with any bindings the next one has the effect of the closed form, unless the
process started at the level of perceived work, which no signal asserted. -/
theorem closedForm_foldl (pid uid level : Int) (hlevel : level ≠ Level.perceived)
    (steps : List (Reason × Option Binding)) (reason : Reason) (binding : Option Binding) :
    let p := steps.foldl (fun p step => p.respond step.1 step.2) (start pid uid level)
    p.ClosedForm (p.respond reason binding) reason binding :=
  (landed_foldl (landed_start hlevel) steps).closedForm reason binding

/-- The end of an event leaves a process at the level where its binding holds it as well. -/
theorem closedForm_foldl_bound :
    let p := [(.distDeviceConnected, none), (.bindExtension, some ⟨none, Level.perceived⟩),
      (.eventStart, none)].foldl (fun p step => p.respond step.1 step.2)
        (start 1 20000001 Level.background)
    p.level = Level.perceived ∧ p.ClosedForm (p.respond .eventEnd none) .eventEnd none ∧
      (p.respond .eventEnd none).level = Level.perceived := by
  refine ⟨by decide, ?_, by decide⟩
  exact closedForm_foldl 1 20000001 Level.background (by decide) _ _ _

end TrackedProcess

end MemoryArbiter
