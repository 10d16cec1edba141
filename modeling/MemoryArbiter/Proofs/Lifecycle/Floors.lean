import MemoryArbiter.Proofs.Lifecycle.Rules

/-! # Levels rest on something

The floors of a process are the levels of the signals asserted for it.  A settled process is not
above any of them, and its level is a plain one or exactly one of them.  All rules keep a process
settled, except that a binding may be replaced by a looser one.
-/

namespace MemoryArbiter

/-- The levels that a process can have without any signal. -/
def Level.plain : List Int := [Level.foreground, Level.background, Level.frozen, Level.suspend]

theorem Level.background_mem_plain : Level.background ∈ Level.plain := by decide

/-- The levels of the signals that are asserted. -/
def Signals.floors (s : Signals) : List Int :=
  (if s.perceived then [Level.perceived] else []) ++
    (if s.suspendDelay then [Level.suspendDelay] else []) ++
    (if s.visible then [Level.visible] else []) ++
    (if s.distDevice then [Level.distDevice] else []) ++ (s.binding.map Binding.floor).toList

theorem Signals.mem_floors {s : Signals} {f : Int} : f ∈ s.floors ↔
    (s.perceived = true ∧ f = Level.perceived) ∨
    (s.suspendDelay = true ∧ f = Level.suspendDelay) ∨ (s.visible = true ∧ f = Level.visible) ∨
    (s.distDevice = true ∧ f = Level.distDevice) ∨ ∃ b, s.binding = some b ∧ f = b.floor := by
  unfold floors
  have hbinding : some f = s.binding.map Binding.floor ↔ ∃ b, s.binding = some b ∧ f = b.floor := by
    cases s.binding <;> simp
  simp only [List.mem_append, List.mem_ite_nil_right, List.mem_singleton, Option.mem_toList,
    or_assoc, eq_comm, hbinding]

theorem Signals.mem_floors_binding {s : Signals} {new : Binding} {f : Int} :
    f ∈ { s with binding := some new }.floors ↔
      f = new.floor ∨ f ∈ { s with binding := none }.floors := by
  rw [mem_floors, mem_floors]
  grind [Signals.perceived]

namespace TrackedProcess

def Grounded (p : TrackedProcess) : Prop := p.level ∈ Level.plain ∨ p.level ∈ p.signals.floors

instance (p : TrackedProcess) : Decidable p.Grounded := inferInstanceAs (Decidable (_ ∨ _))

structure Settled (p : TrackedProcess) : Prop where
  grounded : p.Grounded
  held : ∀ f ∈ p.signals.floors, p.level ≤ f

/-- Nothing but its binding keeps `p` at its level, and a binding with `floor` would not. -/
structure Loosens (p : TrackedProcess) (floor : Int) : Prop where
  special : p.level ∉ Level.plain
  lasting : p.level ≠ Level.perceived
  unheld : p.level ∉ { p.signals with binding := none }.floors
  above : p.level < floor

instance (p : TrackedProcess) (floor : Int) : Decidable (p.Loosens floor) :=
  decidable_of_iff (p.level ∉ Level.plain ∧ p.level ≠ Level.perceived ∧
      p.level ∉ { p.signals with binding := none }.floors ∧ p.level < floor)
    ⟨fun ⟨h₁, h₂, h₃, h₄⟩ => ⟨h₁, h₂, h₃, h₄⟩, fun ⟨h₁, h₂, h₃, h₄⟩ => ⟨h₁, h₂, h₃, h₄⟩⟩

/-! ### The level after the floors -/

/-- The level that the floors start from. -/
def unperceived (p : TrackedProcess) : Int :=
  if p.signals.perceived = false ∧ p.level = Level.perceived then Level.background else p.level

theorem liftTo_level (p : TrackedProcess) (floor : Int) :
    (p.liftTo floor).level = min p.level floor := by
  unfold liftTo
  split
  · show floor = _
    omega
  · omega

theorem holdAt_level (p : TrackedProcess) (asserted : Bool) (floor : Int) :
    (p.holdAt asserted floor).level =
      (if asserted then [floor] else []).foldl min p.level := by
  unfold holdAt
  cases asserted with
  | true => exact p.liftTo_level floor
  | false => rfl

theorem holdBinding_level (p : TrackedProcess) :
    p.holdBinding.level = (p.signals.binding.map Binding.floor).toList.foldl min p.level := by
  unfold holdBinding
  cases p.signals.binding with
  | some b => exact p.liftTo_level b.floor
  | none => rfl

theorem holdAll_level (p : TrackedProcess) :
    p.holdAll.level = p.signals.floors.foldl min p.unperceived := by
  have hfirst : (if p.signals.perceived then p.liftTo Level.perceived
        else p.letGo Level.perceived).level =
      (if p.signals.perceived then [Level.perceived] else []).foldl min p.unperceived := by
    unfold unperceived
    cases hp : p.signals.perceived with
    | true => simp [liftTo_level]
    | false =>
      unfold letGo
      by_cases hl : p.level = Level.perceived <;> simp [hl]
  unfold Signals.floors
  simp only [List.foldl_append, ← hfirst]
  unfold holdAll
  cases p.signals.perceived <;> simp [holdBinding_level, holdAt_level]

/-- The level is the least of the floors and of what they start from. -/
theorem holdAll_level_spec (p : TrackedProcess) :
    (p.holdAll.level = p.unperceived ∨ p.holdAll.level ∈ p.signals.floors) ∧
      p.holdAll.level ≤ p.unperceived ∧ ∀ f ∈ p.signals.floors, p.holdAll.level ≤ f := by
  have hmin : (p.unperceived :: p.signals.floors).min? = some p.holdAll.level := by
    rw [holdAll_level]
    exact List.min?_cons'
  obtain ⟨hmem, hle⟩ := List.min?_eq_some_iff.mp hmin
  exact ⟨List.mem_cons.mp hmem, hle _ (List.mem_cons_self ..),
    fun f hf => hle f (List.mem_cons_of_mem _ hf)⟩

theorem holdAll_held (p : TrackedProcess) : ∀ f ∈ p.holdAll.signals.floors, p.holdAll.level ≤ f := by
  rw [holdAll_signals]
  exact p.holdAll_level_spec.2.2

/-! ### One reason -/

section

variable {p : TrackedProcess} {s : Signals} {floor : Int} {reason : Reason}
  {binding : Option Binding}

theorem Settled.of_unperceived (h : p.unperceived ∈ Level.plain ∨ p.unperceived ∈ p.signals.floors) :
    p.holdAll.Settled := by
  refine ⟨?_, p.holdAll_held⟩
  unfold Grounded
  rw [holdAll_signals]
  rcases p.holdAll_level_spec.1 with hl | hl
  · rw [hl]
    exact h
  · exact .inr hl

theorem Grounded.settled_holdAll (h : p.Grounded) : p.holdAll.Settled := by
  apply Settled.of_unperceived
  unfold unperceived
  split
  · exact .inl Level.background_mem_plain
  · exact h

/-- If a floor is let go of, nothing else has to be. -/
theorem Grounded.letGo (h : p.Grounded) (hfloors : ∀ f ∈ p.signals.floors, f ∈ s.floors ∨ f = floor) :
    ({ p with signals := s }.letGo floor).Grounded := by
  unfold TrackedProcess.letGo Grounded
  by_cases hl : p.level = floor
  · rw [if_pos hl]
    exact .inl Level.background_mem_plain
  · rw [if_neg hl]
    rcases h with h | h
    · exact .inl h
    · exact .inr ((hfloors _ h).resolve_right hl)

theorem Grounded.settled_signals (h : p.Grounded)
    (hfloors : ∀ f ∈ p.signals.floors, f ∈ s.floors ∨ (s.perceived = false ∧ f = Level.perceived)) :
    { p with signals := s }.holdAll.Settled := by
  apply Settled.of_unperceived
  unfold unperceived
  split
  · exact .inl Level.background_mem_plain
  · next hno =>
    rcases h with h | h
    · exact .inl h
    · exact .inr ((hfloors _ h).resolve_right hno)

theorem Grounded.settled_respond (h : p.Grounded) (hr : reason ≠ .bindExtension) :
    (p.respond reason binding).Settled := by
  unfold respond
  cases reason with
  | foreground | abilityStart | background | applicationSuspend | freeze =>
    exact Grounded.settled_holdAll (.inl (by simp [react, Level.plain]))
  | unfreeze => exact (h.letGo (s := p.signals) fun f hf => .inl hf).settled_holdAll
  | suspendDelayEnd | unVisible | distDeviceDisconnected =>
    refine (h.letGo fun f hf => ?_).settled_holdAll
    rw [Signals.mem_floors] at hf ⊢
    grind [Signals.perceived]
  | unbindExtension =>
    unfold react
    cases hb : p.signals.binding with
    | none =>
      simp only [hb]
      exact h.settled_holdAll
    | some old =>
      simp only [hb]
      refine (h.letGo fun f hf => ?_).settled_holdAll
      rw [Signals.mem_floors] at hf ⊢
      grind [Signals.perceived]
  | suspendDelayStart | backgroundRunningStart | backgroundRunningEnd | eventStart | eventEnd
  | dataAbilityStart | dataAbilityEnd | visible | distDeviceConnected =>
    refine h.settled_signals fun f hf => ?_
    rw [Signals.mem_floors] at hf ⊢
    grind [Signals.perceived]
  | createProcess | processReady | processTerminated | osAccountChanged => exact h.settled_holdAll
  | bindExtension => exact absurd rfl hr

/-- The one reason that may leave a process at a level that nothing asserts. -/
theorem Settled.respond_binding_iff (h : p.Settled) (new : Binding) :
    (p.respond .bindExtension (some new)).Grounded ↔ ¬ p.Loosens new.floor := by
  let q := { p with signals := { p.signals with binding := some new } }
  have hfloors : ∀ f, f ∈ q.signals.floors ↔
      f = new.floor ∨ f ∈ { p.signals with binding := none }.floors :=
    fun f => Signals.mem_floors_binding
  have hspec := q.holdAll_level_spec
  have hbase : q.unperceived = p.level ∨ q.unperceived = Level.background := by
    unfold unperceived
    split
    · exact .inr rfl
    · exact .inl rfl
  show q.holdAll.Grounded ↔ _
  constructor
  · intro hgrounded hloose
    have hstart : q.unperceived = p.level := if_neg fun hp => hloose.lasting hp.2
    have hle : ∀ f ∈ q.signals.floors, p.level ≤ f := by
      intro f hf
      rcases (hfloors f).mp hf with rfl | hf
      · exact Int.le_of_lt hloose.above
      · refine h.held f ?_
        rw [Signals.mem_floors] at hf ⊢
        grind [Signals.perceived]
    have hlevel : q.holdAll.level = p.level := by
      rcases hspec.1 with hl | hl
      · exact hl.trans hstart
      · have hge := hle _ hl
        have hbound := hspec.2.1
        omega
    unfold Grounded at hgrounded
    rw [hlevel, holdAll_signals, hfloors] at hgrounded
    rcases hgrounded with hg | hg | hg
    · exact hloose.special hg
    · have habove := hloose.above
      omega
    · exact hloose.unheld hg
  · intro hno
    unfold Grounded
    rw [holdAll_signals]
    rcases hspec.1 with hl | hl
    · rcases hbase with hb | hb
      · have hfloor : p.level ≤ new.floor := by
          rw [← hb, ← hl]
          exact hspec.2.2 _ ((hfloors _).mpr (.inl rfl))
        rw [hl, hb, hfloors]
        by_cases hplain : p.level ∈ Level.plain
        · exact .inl hplain
        · by_cases hheld : p.level ∈ { p.signals with binding := none }.floors
          · exact .inr (.inr hheld)
          · have hlasting : p.level ≠ Level.perceived := by
              intro hp
              have hoff : p.signals.perceived = false := by
                refine Bool.eq_false_iff.mpr fun hon => hheld ?_
                rw [Signals.mem_floors]
                exact .inl ⟨hon, hp⟩
              have hstart : q.unperceived = Level.background := if_pos ⟨hoff, hp⟩
              exact hplain (by rw [← hb, hstart]; exact Level.background_mem_plain)
            have hnot : ¬ p.level < new.floor := fun ha => hno ⟨hplain, hlasting, hheld, ha⟩
            exact .inr (.inl (by omega))
      · rw [hl, hb]
        exact .inl Level.background_mem_plain
    · exact .inr hl

theorem respond_held (p : TrackedProcess) (reason : Reason) (binding : Option Binding) :
    ∀ f ∈ (p.respond reason binding).signals.floors, (p.respond reason binding).level ≤ f :=
  holdAll_held _

theorem Settled.of_eq {q : TrackedProcess} (h : p.Settled) (hlevel : q.level = p.level)
    (hsignals : q.signals = p.signals) : q.Settled := by
  obtain ⟨hgrounded, hheld⟩ := h
  unfold Grounded at hgrounded
  rw [← hlevel, ← hsignals] at hgrounded hheld
  exact ⟨hgrounded, hheld⟩

end

end TrackedProcess

end MemoryArbiter
