import MemoryArbiter.Proofs.Lifecycle.Levels

/-! # The levels that occur

In a bundle that is not pinned a process is at one of eight levels, and a process of a pinned bundle
is as it was started.  The floor of a binding is the level of another bundle, so levels and floors
are bounded by one invariant over all processes.
-/

namespace MemoryArbiter

namespace Level

/-- The levels at which a signal can hold a process. -/
def floors : List Int :=
  [visible, suspendDelay, perceived, distDevice, background, frozen, suspend]

/-- The levels of processes that can change. -/
def ordinary : List Int := foreground :: floors

theorem foreground_lt_of_mem_floors {f : Int} (h : f ∈ floors) : foreground < f := by
  have hall : ∀ f ∈ floors, foreground < f := by decide
  exact hall f h

theorem mem_ordinary_of_mem_floors {f : Int} (h : f ∈ floors) : f ∈ ordinary :=
  List.mem_cons_of_mem _ h

theorem bounds_of_mem_ordinary {l : Int} (h : l ∈ ordinary) : foreground ≤ l ∧ l ≤ suspend := by
  have hall : ∀ l ∈ ordinary, foreground ≤ l ∧ l ≤ suspend := by decide
  exact hall l h

theorem bindingFloor_mem_floors {caller : Option Int}
    (h : ∀ l ∈ caller, l = system ∨ l ∈ ordinary) : bindingFloor caller ∈ floors := by
  have hall : ∀ l ∈ system :: ordinary, max l visible ∈ floors := by decide
  cases caller with
  | none => decide
  | some l => exact hall l (List.mem_cons.mpr (h l rfl))

end Level

namespace TrackedProcess

/-! ### One process -/

/-- What the rules need and keep: the level is one of the eight, the foreground mark goes with it,
and the floor of the binding is one at which a process can be held. -/
structure Proper (p : TrackedProcess) : Prop where
  level : p.level ∈ Level.ordinary
  foreground : p.signals.foreground = true ↔ p.level = Level.foreground
  binding : ∀ b, p.signals.binding = some b → b.floor ∈ Level.floors

/-- A process of a bundle that is not pinned.  It is not above any floor of its signals. -/
structure Regular (p : TrackedProcess) : Prop extends Proper p where
  held : ∀ f ∈ p.signals.floors, p.level ≤ f

structure Untouched (p : TrackedProcess) : Prop where
  level : p.level = Level.system
  signals : p.signals = {}
  boost : p.boost = none

variable {p q : TrackedProcess} {s : Signals} {floor : Int} {reason : Reason}
  {binding : Option Binding}

theorem Proper.of_eq (h : p.Proper) (hlevel : q.level = p.level) (hsignals : q.signals = p.signals) :
    q.Proper := by
  obtain ⟨h₁, h₂, h₃⟩ := h
  rw [← hlevel] at h₁ h₂
  rw [← hsignals] at h₂ h₃
  exact ⟨h₁, h₂, h₃⟩

theorem Regular.of_eq (h : p.Regular) (hlevel : q.level = p.level)
    (hsignals : q.signals = p.signals) : q.Regular := by
  refine ⟨h.toProper.of_eq hlevel hsignals, ?_⟩
  rw [hlevel, hsignals]
  exact h.held

theorem Untouched.of_eq (h : p.Untouched) (hlevel : q.level = p.level)
    (hsignals : q.signals = p.signals) (hboost : q.boost = p.boost) : q.Untouched :=
  ⟨hlevel.trans h.level, hsignals.trans h.signals, hboost.trans h.boost⟩

theorem Proper.floors_mem (h : p.Proper) : ∀ f ∈ p.signals.floors, f ∈ Level.floors := by
  intro f hf
  rcases Signals.mem_floors.mp hf with ⟨-, rfl⟩ | ⟨-, rfl⟩ | ⟨-, rfl⟩ | ⟨-, rfl⟩ | ⟨b, hb, rfl⟩
  · decide
  · decide
  · decide
  · decide
  · exact h.binding b hb

/-! ### One reason -/

theorem Proper.letGo (h : p.Proper) (hfloor : floor ∈ Level.floors) : (p.letGo floor).Proper := by
  have hlevel : Level.background ∈ Level.ordinary := by decide
  unfold TrackedProcess.letGo
  split
  · next hl =>
    have hfront : p.signals.foreground ≠ true := by
      intro hf
      have hlt := Level.foreground_lt_of_mem_floors hfloor
      have hzero := h.foreground.mp hf
      omega
    exact ⟨hlevel, iff_of_false hfront (show Level.background ≠ Level.foreground by decide),
      h.binding⟩
  · exact h

theorem Proper.withSignals (h : p.Proper) (hfront : s.foreground = p.signals.foreground)
    (hbinding : ∀ b, s.binding = some b → b.floor ∈ Level.floors) :
    { p with signals := s }.Proper := by
  refine ⟨h.level, ?_, hbinding⟩
  show s.foreground = true ↔ p.level = Level.foreground
  rw [hfront]
  exact h.foreground

theorem Proper.placed (h : p.Proper) {level : Int} {front : Bool} (hlevel : level ∈ Level.ordinary)
    (hfront : front = true ↔ level = Level.foreground) :
    { p with level := level, signals := { p.signals with foreground := front } }.Proper :=
  ⟨hlevel, hfront, h.binding⟩

theorem Proper.react (h : p.Proper) (hbinding : ∀ b ∈ binding, b.floor ∈ Level.floors) :
    (p.react reason binding).Proper := by
  unfold TrackedProcess.react
  cases reason with
  | foreground | abilityStart | background | applicationSuspend | freeze =>
    exact h.placed (by decide) (by decide)
  | unfreeze => exact h.letGo (by decide)
  | suspendDelayEnd | unVisible | distDeviceDisconnected =>
    exact Proper.letGo (h.withSignals rfl h.binding) (by decide)
  | bindExtension => exact h.withSignals rfl hbinding
  | unbindExtension =>
    cases hb : p.signals.binding with
    | none =>
      simp only [hb]
      exact h
    | some old =>
      simp only [hb]
      refine Proper.letGo (h.withSignals rfl ?_) (h.binding old hb)
      exact fun _ hnone => nomatch hnone
  | suspendDelayStart | backgroundRunningStart | backgroundRunningEnd | eventStart | eventEnd
  | dataAbilityStart | dataAbilityEnd | visible | distDeviceConnected =>
    exact h.withSignals rfl h.binding
  | createProcess | processReady | processTerminated | osAccountChanged => exact h

theorem Proper.holdAll (h : p.Proper) : p.holdAll.Regular := by
  have hspec := p.holdAll_level_spec
  have hfloors : ∀ f ∈ p.signals.floors, Level.foreground < f :=
    fun f hf => Level.foreground_lt_of_mem_floors (h.floors_mem f hf)
  -- the floors never take a process to the foreground, nor away from it
  have hfront : p.holdAll.level = Level.foreground ↔ p.level = Level.foreground := by
    unfold unperceived at hspec
    split at hspec
    · next hp =>
      have hback : Level.foreground < Level.background := by decide
      have hperceived : Level.foreground < Level.perceived := by decide
      rw [hp.2]
      refine iff_of_false ?_ (by omega)
      rcases hspec.1 with hl | hl
      · omega
      · have hlt := hfloors _ hl
        omega
    · have hmin := (Level.bounds_of_mem_ordinary h.level).1
      constructor
      · intro hzero
        rcases hspec.1 with hl | hl
        · omega
        · have hlt := hfloors _ hl
          omega
      · intro hzero
        rcases hspec.1 with hl | hl
        · omega
        · have hlt := hfloors _ hl
          omega
  refine ⟨⟨?_, ?_, ?_⟩, p.holdAll_held⟩
  · rcases hspec.1 with hl | hl
    · rw [hl]
      unfold unperceived
      split
      · decide
      · exact h.level
    · exact Level.mem_ordinary_of_mem_floors (h.floors_mem _ hl)
  · rw [holdAll_signals, hfront]
    exact h.foreground
  · rw [holdAll_signals]
    exact h.binding

theorem Proper.respond (h : p.Proper) (hbinding : ∀ b ∈ binding, b.floor ∈ Level.floors) :
    (p.respond reason binding).Regular :=
  (h.react hbinding).holdAll

end TrackedProcess

namespace Engine

variable {e : Engine} {r : Request} {uid pid : Int} {p q : TrackedProcess} {b : Bundle}

/-! ### All processes -/

structure Regular (e : Engine) : Prop where
  ordinary : ∀ pid p b, e.processes.get? pid = some p → e.bundles.get? p.uid = some b →
    b.pinned = false → p.Regular
  pinned : ∀ pid p b, e.processes.get? pid = some p → e.bundles.get? p.uid = some b →
    b.pinned = true → p.Untouched

theorem regular_new (settings : Settings) : (new settings).Regular :=
  ⟨(fun _ _ _ h => nomatch h), (fun _ _ _ h => nomatch h)⟩

theorem Regular.pinned_eq_false (hr : e.Regular) (hregular : p.Regular)
    (hp : e.processes.get? pid = some p) (hb : e.bundles.get? p.uid = some b) :
    b.pinned = false := by
  cases hpin : b.pinned with
  | false => rfl
  | true =>
    have hlevel := hregular.level
    rw [(hr.pinned pid p b hp hb hpin).level] at hlevel
    exact absurd hlevel (by decide)

theorem Sound.exists_of_levelOf (h : e.Sound) {level : Int} (hlevel : e.levelOf uid = some level) :
    ∃ b pid p, e.bundles.get? uid = some b ∧ e.processes.get? pid = some p ∧ p.uid = uid ∧
      p.level = level := by
  unfold levelOf at hlevel
  obtain ⟨b, hb, hmin⟩ := Option.bind_eq_some_iff.mp hlevel
  obtain ⟨hmem, -⟩ := List.min?_eq_some_iff.mp hmin
  obtain ⟨p, hp, hplevel⟩ := List.mem_map.mp hmem
  obtain ⟨pid, hget, hu⟩ := ((h.housed uid).mem_members_iff hb).mp hp
  exact ⟨b, pid, p, hb, hget, hu, hplevel⟩

theorem Regular.level_cases (h : e.Sound) (hr : e.Regular) {level : Int}
    (hlevel : e.levelOf uid = some level) : level = Level.system ∨ level ∈ Level.ordinary := by
  obtain ⟨b, pid, p, hb, hget, rfl, rfl⟩ := h.exists_of_levelOf hlevel
  cases hpin : b.pinned with
  | true => exact .inl (hr.pinned pid p b hget hb hpin).level
  | false => exact .inr (hr.ordinary pid p b hget hb hpin).level

theorem Regular.bindingFor (h : e.Sound) (hr : e.Regular) (ev : Event) :
    ∀ b ∈ e.bindingFor ev, b.floor ∈ Level.floors := by
  intro b hb
  unfold Engine.bindingFor at hb
  split at hb
  · obtain rfl := Option.some.inj hb
    refine Level.bindingFloor_mem_floors fun l hl => ?_
    obtain ⟨uid, -, hlevel⟩ := Option.bind_eq_some_iff.mp hl
    exact hr.level_cases h hlevel
  · cases hb

theorem Regular.of_allowed (h : e.Sound) (hr : e.Regular) (hallowed : e.refusal? uid pid = none)
    (hp : e.processes.get? pid = some p) : p.Regular := by
  obtain ⟨b, hb, -, hpin⟩ := refusal?_eq_none hallowed
  obtain ⟨q, hq, rfl⟩ := h.tracks_of_refusal? hallowed
  obtain rfl := Option.some.inj (hq.symm.trans hp)
  exact hr.ordinary pid q b hp hb hpin

theorem Regular.regular_of_origin (h : e.Sound) (hr : e.Regular)
    (hp : Lifecycle.ProcessOrigin e.settings.policy e.lifecycle r pid p)
    (hb : (e.lifecycle.after e.settings.policy r).bundles.get? p.uid = some b)
    (hpin : b.pinned = false) : p.Regular := by
  have hbefore : ∀ q, e.lifecycle.processes.get? pid = some q → q.uid = p.uid → q.Regular := by
    intro q hq hu
    rw [← hu] at hb
    obtain ⟨q₀, c, hq₀, rfl, hc, hcpin⟩ := h.process_before hq hb
    exact (hr.ordinary pid q₀ c hq₀ hc (hcpin.trans hpin)).of_eq rfl rfl
  cases hp with
  | kept _ hq => exact hbefore p hq rfl
  | started ev hasked hreason hpid hnew =>
    subst hasked
    have hlevel : Level.foreground ∈ Level.ordinary := by decide
    rw [← Lifecycle.pinned_after_event hb, hpin]
    exact ⟨⟨hlevel, iff_of_true rfl rfl, fun _ hnone => nomatch hnone⟩, fun f hf => nomatch hf⟩
  | changed ev hasked hreason hpid hallowed q hq boost =>
    have hq' := hbefore q hq (q.respond_ids _ _).2.symm
    have hbinding := hr.bindingFor h ev
    rw [← lifecycle_bindingFor] at hbinding
    exact (hq'.respond hbinding).of_eq rfl rfl
  | expired token hasked q hq boost hwaiting reason hundo =>
    have hq' := hbefore q hq ({ q with boost := none }.respond_ids _ _).2.symm
    have hq'' : { q with boost := none }.Proper := hq'.toProper.of_eq rfl rfl
    exact hq''.respond fun _ hnone => nomatch hnone

theorem Regular.untouched_of_origin (h : e.Sound) (hr : e.Regular)
    (hp : Lifecycle.ProcessOrigin e.settings.policy e.lifecycle r pid p)
    (hb : (e.lifecycle.after e.settings.policy r).bundles.get? p.uid = some b)
    (hpin : b.pinned = true) : p.Untouched := by
  have hbefore : ∀ q, e.lifecycle.processes.get? pid = some q → q.uid = p.uid →
      q.Untouched ∧ ∃ c, e.bundles.get? q.uid = some c ∧ c.pinned = true := by
    intro q hq hu
    rw [← hu] at hb
    obtain ⟨q₀, c, hq₀, rfl, hc, hcpin⟩ := h.process_before hq hb
    exact ⟨(hr.pinned pid q₀ c hq₀ hc (hcpin.trans hpin)).of_eq rfl rfl rfl, c, hc,
      hcpin.trans hpin⟩
  cases hp with
  | kept _ hq => exact (hbefore p hq rfl).1
  | started ev hasked hreason hpid hnew =>
    subst hasked
    rw [← Lifecycle.pinned_after_event hb, hpin]
    exact ⟨rfl, rfl, rfl⟩
  -- a pinned bundle refuses every change, and nothing waits on its processes
  | changed ev hasked hreason hpid hallowed q hq boost =>
    subst hpid
    obtain ⟨-, c, hc, hcpin⟩ := hbefore q hq (q.respond_ids _ _).2.symm
    rw [lifecycle_refusal?] at hallowed
    obtain ⟨d, hd, hmem, hdpin⟩ := refusal?_eq_none hallowed
    obtain ⟨q', hq', hu⟩ := h.tracks_of_refusal? hallowed
    rw [lifecycle_process?, hq'] at hq
    obtain rfl := Option.some.inj hq
    have hcd : c = d := Option.some.inj (hc.symm.trans ((congrArg e.bundles.get? hu).trans hd))
    rw [hcd, hdpin] at hcpin
    cases hcpin
  | expired token hasked q hq boost hwaiting reason hundo =>
    obtain ⟨huntouched, -⟩ := hbefore q hq ({ q with boost := none }.respond_ids _ _).2.symm
    rw [huntouched.boost] at hwaiting
    cases hwaiting

theorem Sound.regular_after (h : e.Sound) (hr : e.Regular) (r : Request) : (e.after r).Regular := by
  constructor
  · intro pid p b hp hb hpin
    have horigin := Lifecycle.process?_after (h.lifecycle_after_process? hp)
    have hregular : p.unpriced.Regular :=
      hr.regular_of_origin h horigin (h.lifecycle_after_bundle? hb) hpin
    exact hregular.of_eq rfl rfl
  · intro pid p b hp hb hpin
    have horigin := Lifecycle.process?_after (h.lifecycle_after_process? hp)
    have huntouched : p.unpriced.Untouched :=
      hr.untouched_of_origin h horigin (h.lifecycle_after_bundle? hb) hpin
    exact huntouched.of_eq rfl rfl rfl

theorem run_regular (settings : Settings) (requests : List Request) :
    (run settings requests).Regular :=
  run_sound_induction (regular_new settings) (fun _ r h hr => h.regular_after hr r) requests

end Engine

end MemoryArbiter
