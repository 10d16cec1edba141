import MemoryArbiter.Proofs.Lifecycle.Withdrawal

/-! # The same reason again

A reason that comes twice in a row does nothing the second time: the signals are set already, and the
floors have brought the level to where they would bring it again.
-/

namespace MemoryArbiter

namespace TrackedProcess

variable {p q : TrackedProcess} {reason : Reason} {binding : Option Binding} {floor : Int}

/-! ### Where the floors leave a process -/

/-- The floors do not move `p`. -/
structure Landed (p : TrackedProcess) : Prop where
  held : ∀ f ∈ p.signals.floors, p.level ≤ f
  /-- It is at the level of the signals for perceived work only for one of them, or for a binding. -/
  perceived : p.level = p.unperceived ∨ p.level ∈ p.signals.floors

theorem unperceived_eq (hlevel : q.level = p.level) (hsignals : q.signals = p.signals) :
    q.unperceived = p.unperceived := by
  unfold unperceived
  rw [hlevel, hsignals]

theorem unperceived_cases (p : TrackedProcess) :
    p.unperceived = Level.background ∨ p.unperceived = p.level := by
  unfold unperceived
  split
  · exact .inl rfl
  · exact .inr rfl

theorem unperceived_unperceived (p : TrackedProcess) :
    { p with level := p.unperceived }.unperceived = p.unperceived := by
  have hne : Level.background ≠ Level.perceived := by decide
  by_cases hp : p.signals.perceived = false ∧ p.level = Level.perceived
  · have hstart : p.unperceived = Level.background := if_pos hp
    rw [hstart]
    exact if_neg fun h => hne h.2
  · have hstart : p.unperceived = p.level := if_neg hp
    rw [hstart]
    exact if_neg hp

theorem Landed.of_eq (h : p.Landed) (hlevel : q.level = p.level) (hsignals : q.signals = p.signals) :
    q.Landed := by
  obtain ⟨hheld, hperceived⟩ := h
  rw [← unperceived_eq hlevel hsignals] at hperceived
  rw [← hlevel, ← hsignals] at hheld hperceived
  exact ⟨hheld, hperceived⟩

theorem landed_holdAll (p : TrackedProcess) : p.holdAll.Landed := by
  refine ⟨p.holdAll_held, ?_⟩
  rw [holdAll_signals]
  refine p.holdAll_level_spec.1.imp_left fun hl => ?_
  have hstart : p.holdAll.unperceived = { p with level := p.unperceived }.unperceived :=
    unperceived_eq hl p.holdAll_signals
  rw [hstart, unperceived_unperceived, hl]

/-! ### The floors only move the level -/

theorem liftTo_eq (p : TrackedProcess) (floor : Int) :
    p.liftTo floor = { p with level := (p.liftTo floor).level } := by
  unfold liftTo
  split <;> rfl

theorem letGo_eq (p : TrackedProcess) (floor : Int) :
    p.letGo floor = { p with level := (p.letGo floor).level } := by
  unfold letGo
  split <;> rfl

theorem holdAt_eq (p : TrackedProcess) (asserted : Bool) (floor : Int) :
    p.holdAt asserted floor = { p with level := (p.holdAt asserted floor).level } := by
  unfold holdAt
  split
  · exact p.liftTo_eq floor
  · rfl

theorem holdBinding_eq (p : TrackedProcess) :
    p.holdBinding = { p with level := p.holdBinding.level } := by
  unfold holdBinding
  split
  · exact p.liftTo_eq _
  · rfl

theorem holdAll_eq (p : TrackedProcess) : p.holdAll = { p with level := p.holdAll.level } := by
  unfold holdAll
  rw [holdBinding_eq, holdAt_eq, holdAt_eq, holdAt_eq]
  split
  · rw [liftTo_eq]
  · rw [letGo_eq]

/-- A process to which the floors bring `p` is `p` itself if only the level can differ. -/
theorem holdAll_eq_of_level (hq : { q with level := p.level } = p) (hlevel : q.holdAll.level = p.level) :
    q.holdAll = p := by
  rw [holdAll_eq, hlevel, hq]

theorem Landed.holdAll_eq (h : p.Landed) : p.holdAll = p := by
  refine holdAll_eq_of_level rfl ?_
  have hspec := p.holdAll_level_spec
  have hstart := p.level_le_unperceived
  have hle : p.holdAll.level ≤ p.level := by
    rcases h.perceived with hl | hl
    · rw [hl]
      exact hspec.2.1
    · exact hspec.2.2 _ hl
  have hge := le_holdAll (Int.le_refl p.level) h.held
  omega

/-! ### The same reason again -/

theorem holdAll_level_eq (hlevel : q.level = p.level) (hsignals : q.signals = p.signals) :
    q.holdAll.level = p.holdAll.level := by
  rw [holdAll_level, holdAll_level, unperceived_eq hlevel hsignals, hsignals]

theorem landed_of_respond (hlevel : q.level = (p.respond reason binding).level)
    (hsignals : q.signals = (p.respond reason binding).signals) : q.Landed :=
  (landed_holdAll _).of_eq hlevel hsignals

theorem Landed.respond_eq (h : p.Landed) (hreact : p.react reason binding = p) :
    p.respond reason binding = p := by
  unfold respond
  rw [hreact, h.holdAll_eq]

/-- A reason that puts a process at a level puts it there again, and the floors do the same. -/
theorem respond_eq_of_placed (hlevel : q.level = (p.respond reason binding).level)
    (hsignals : q.signals = (p.react reason binding).signals)
    (hplaced : q.react reason binding = { q with level := (p.react reason binding).level }) :
    q.respond reason binding = q := by
  unfold respond at hlevel ⊢
  have hsame : (q.react reason binding).level = (p.react reason binding).level := by rw [hplaced]
  have hkept : (q.react reason binding).signals = (p.react reason binding).signals := by
    rw [hplaced]
    exact hsignals
  refine holdAll_eq_of_level ?_ ((holdAll_level_eq hsame hkept).trans hlevel.symm)
  rw [hplaced]

theorem letGo_level_ne (hfloor : floor ≠ Level.background) : (p.letGo floor).level ≠ floor := by
  unfold letGo
  split
  · exact fun hl => hfloor hl.symm
  · next hl => exact hl

/-- A process that is at `floor` after it was let go of is held there by another signal. -/
theorem mem_floors_of_letGo (hl : (p.letGo floor).holdAll.level = floor)
    (hfloor : floor ≠ Level.background) : floor ∈ p.signals.floors := by
  have hcases := (p.letGo floor).holdAll_level_spec.1
  rw [hl, letGo_signals] at hcases
  refine hcases.resolve_left fun hstart => ?_
  rcases (p.letGo floor).unperceived_cases with hback | hsame
  · exact hfloor (hstart.trans hback)
  · exact letGo_level_ne hfloor (hsame.symm.trans hstart.symm)

theorem withSignals_eq {s : Signals} (hs : q.signals = s) : { q with signals := s } = q := by
  subst hs
  rfl

theorem letGo_again {s : Signals} (hlevel : q.level = (p.letGo floor).holdAll.level)
    (hsignals : q.signals = p.signals) (hs : q.signals = s) (hlt : floor < Level.background) :
    ({ q with signals := s }.letGo floor).holdAll = q := by
  have hlanded : q.Landed := (landed_holdAll _).of_eq hlevel (by
    rw [holdAll_signals, letGo_signals, hsignals])
  rw [withSignals_eq hs]
  by_cases hl : q.level = floor
  · -- it goes to the background, from where the other signal takes it back
    have hmem : q.level ∈ q.signals.floors := by
      rw [hl, hsignals]
      exact mem_floors_of_letGo (hlevel.symm.trans hl) (by omega)
    have hdown : q.letGo floor = { q with level := Level.background } := if_pos hl
    rw [hdown]
    refine holdAll_eq_of_level rfl ?_
    have hle := { q with level := Level.background }.holdAll_level_spec.2.2 _ hmem
    have hge : q.level ≤ { q with level := Level.background }.holdAll.level :=
      le_holdAll (by show q.level ≤ Level.background; omega) hlanded.held
    omega
  · have hstay : q.letGo floor = q := if_neg hl
    rw [hstay, hlanded.holdAll_eq]

/-- A process that thaws is not frozen afterwards, as no signal holds it behind its level. -/
theorem unfrozen (hheld : ∀ f ∈ p.signals.floors, p.level ≤ f) :
    (p.letGo Level.frozen).holdAll.level ≠ Level.frozen := by
  have hlt : Level.background < Level.frozen := by decide
  intro hl
  have hbelow : p.level ≤ Level.frozen := hheld _ (mem_floors_of_letGo hl (by decide))
  have hahead : (p.letGo Level.frozen).level < Level.frozen := by
    unfold letGo
    split
    · exact hlt
    · omega
  have hle := (p.letGo Level.frozen).holdAll_level_spec.2.1
  rcases (p.letGo Level.frozen).unperceived_cases with hback | hsame <;> omega

/-- What `reason` and the floors have made of `p` they leave as it is. -/
theorem respond_again (hlevel : q.level = (p.respond reason binding).level)
    (hsignals : q.signals = (p.respond reason binding).signals)
    (hheld : ∀ f ∈ p.signals.floors, p.level ≤ f) :
    q.respond reason binding = q := by
  have hlanded : q.Landed := landed_of_respond hlevel hsignals
  unfold respond at hlevel
  rw [respond, holdAll_signals] at hsignals
  cases reason with
  | foreground | abilityStart | background | applicationSuspend | freeze =>
    refine respond_eq_of_placed hlevel hsignals ?_
    simp [react, hsignals]
  | unfreeze =>
    have hthawed : q.level ≠ Level.frozen := by
      rw [hlevel]
      exact unfrozen hheld
    exact hlanded.respond_eq (if_neg hthawed)
  | suspendDelayEnd | unVisible | distDeviceDisconnected =>
    simp only [react, letGo_signals] at hsignals
    exact letGo_again (p := { p with signals := _ }) hlevel hsignals (by rw [hsignals]) (by decide)
  | unbindExtension =>
    have hunbound : q.signals.binding = none := by
      rw [hsignals]
      unfold react
      cases hb : p.signals.binding <;> simp [hb]
    refine hlanded.respond_eq ?_
    simp [react, hunbound]
  | suspendDelayStart | backgroundRunningStart | backgroundRunningEnd | eventStart | eventEnd
  | dataAbilityStart | dataAbilityEnd | visible | distDeviceConnected | bindExtension =>
    -- the signal is set, or cleared, already
    refine hlanded.respond_eq (withSignals_eq ?_)
    rw [hsignals]
    rfl
  | createProcess | processReady | processTerminated | osAccountChanged =>
    exact hlanded.respond_eq rfl

/-! ### A binding to the bundle of the process itself -/

/-- A binding holds no process ahead of its caller, and leaves one at the level of its caller there,
also if that is the process itself. -/
theorem level_of_bound (caller : Option Int) {m : Int} (hle : m ≤ p.level)
    (hheld : ∀ f ∈ p.signals.floors, p.level ≤ f) :
    m ≤ (p.respond .bindExtension (some ⟨caller, bindingFloor (some m)⟩)).level ∧
      (p.level = m →
        (p.respond .bindExtension (some ⟨caller, bindingFloor (some m)⟩)).level = m) := by
  let new : Binding := ⟨caller, bindingFloor (some m)⟩
  let q : TrackedProcess := { p with signals := { p.signals with binding := some new } }
  have hvisible : Level.visible < Level.perceived := by decide
  have hfloor : new.floor = max m Level.visible := rfl
  have hfloors : ∀ f ∈ q.signals.floors, m ≤ f := by
    intro f hf
    rcases Signals.mem_floors_binding.mp hf with rfl | hf
    · omega
    · have hother : f ∈ p.signals.floors := by
        rw [Signals.mem_floors] at hf ⊢
        grind [Signals.perceived]
      have hlevel := hheld f hother
      omega
  have hge : m ≤ q.holdAll.level := le_holdAll hle hfloors
  refine ⟨hge, fun hl => ?_⟩
  show q.holdAll.level = m
  obtain ⟨-, hstart, hall⟩ := q.holdAll_level_spec
  have hbound : q.holdAll.level ≤ max m Level.visible :=
    hall new.floor (Signals.mem_floors_binding.mpr (.inl rfl))
  -- ahead of the visible ones only the start of the floors counts, which is the level itself
  by_cases hahead : m ≤ Level.visible
  · have hsame : q.unperceived = p.level := if_neg fun hp => by
      have hperceived : p.level = Level.perceived := hp.2
      omega
    omega
  · omega

end TrackedProcess

namespace Lifecycle

variable {l : Lifecycle} {policy : Policy} {ev : Event} {uid : Int} {p : TrackedProcess}

theorem levelOf_eq_some_iff {m : Int} : l.levelOf uid = some m ↔
    ∃ b, l.bundles.get? uid = some b ∧
      (∃ pid ∈ b.pids, ∃ p, l.processes.get? pid = some p ∧ p.level = m) ∧
      ∀ pid ∈ b.pids, ∀ p, l.processes.get? pid = some p → m ≤ p.level := by
  unfold levelOf
  simp only [Option.bind_eq_some_iff, List.min?_eq_some_iff, List.mem_map, List.mem_filterMap,
    IdSet.mem_toList]
  refine exists_congr fun b => and_congr_right fun _ => and_congr ?_ ?_
  · constructor
    · rintro ⟨p, ⟨pid, hpid, hp⟩, hm⟩
      exact ⟨pid, hpid, p, hp, hm⟩
    · rintro ⟨pid, hpid, p, hp, hm⟩
      exact ⟨p, ⟨pid, hpid, hp⟩, hm⟩
  · constructor
    · intro hle pid hpid p hp
      exact hle _ ⟨p, ⟨pid, hpid, hp⟩, rfl⟩
    · rintro hle _ ⟨p, ⟨pid, hpid, hp⟩, rfl⟩
      exact hle pid hpid p hp

/-- Another record for one process leaves the level of a bundle alone if it is not ahead of it, and
stays at it. -/
theorem levelOf_insert {pid : Int} {q : TrackedProcess} (hp : l.processes.get? pid = some p)
    (hq : ∀ m, l.levelOf uid = some m → m ≤ p.level →
      m ≤ q.level ∧ (p.level = m → q.level = m)) :
    { l with processes := l.processes.insert pid q }.levelOf uid = l.levelOf uid := by
  cases hm : l.levelOf uid with
  | some m =>
    obtain ⟨b, hb, ⟨pid₀, hmem, p₀, hp₀, hl⟩, hle⟩ := levelOf_eq_some_iff.mp hm
    refine levelOf_eq_some_iff.mpr ⟨b, hb, ?_, ?_⟩
    · by_cases hpid : pid = pid₀
      · subst hpid
        obtain rfl := Option.some.inj (hp.symm.trans hp₀)
        exact ⟨pid, hmem, q, Table.get?_insert_self _ _ _, (hq m hm (Int.le_of_eq hl.symm)).2 hl⟩
      · exact ⟨pid₀, hmem, p₀, (Table.get?_insert _ _ _ _).trans ((if_neg hpid).trans hp₀), hl⟩
    · intro pid₁ hmem₁ p₁ hp₁
      rw [Table.get?_insert] at hp₁
      split at hp₁
      · next hpid =>
        subst hpid
        obtain rfl := Option.some.inj hp₁
        exact (hq m hm (hle pid hmem₁ p hp)).1
      · exact hle pid₁ hmem₁ p₁ hp₁
  | none =>
    refine Option.eq_none_iff_forall_ne_some.mpr fun m' hm' => ?_
    obtain ⟨b, hb, ⟨pid₀, hmem, p₀, hp₀, -⟩, -⟩ := levelOf_eq_some_iff.mp hm'
    have hsome : ∃ p₁, l.processes.get? pid₀ = some p₁ := by
      rw [Table.get?_insert] at hp₀
      split at hp₀
      · next hpid => exact ⟨p, hpid ▸ hp⟩
      · exact ⟨p₀, hp₀⟩
    obtain ⟨p₁, hp₁⟩ := hsome
    have hb' : l.bundles.get? uid = some b := hb
    unfold levelOf at hm
    rw [hb', Option.bind_some, List.min?_eq_none_iff, List.map_eq_nil_iff,
      List.filterMap_eq_nil_iff] at hm
    exact nomatch (hm pid₀ (IdSet.mem_toList.mpr hmem)).symm.trans hp₁

/-- The floor of a binding is that of the second binding, even if the process itself is the caller
or one of the caller's bundle. -/
theorem bindingFor_change (hp : l.processes.get? ev.pid = some p)
    (hheld : ∀ f ∈ p.signals.floors, p.level ≤ f) :
    (l.change policy ev).bindingFor ev = l.bindingFor ev := by
  refine bindingFor_congr fun hr caller hc => ?_
  rw [change_of_some hp]
  refine levelOf_insert hp fun m hm hle => ?_
  have hbound := TrackedProcess.level_of_bound ev.callerUid hle hheld
  rw [hr]
  simp only [bindingFor, if_pos hr, hc, Option.bind_some, hm] at hbound ⊢
  exact hbound

/-- The second time only the boost is new. -/
theorem change_again (policy : Policy) (hp : l.processes.get? ev.pid = some p)
    (hheld : ∀ f ∈ p.signals.floors, p.level ≤ f) :
    (l.change policy ev).change policy ev =
      { l.change policy ev with
        processes := (l.change policy ev).processes.adjust ev.pid fun q =>
          { q with
            boost := ((l.change policy ev).tokenFor policy ev.reason).map fun n => ⟨n, ev.reason⟩ }
        lastToken :=
          ((l.change policy ev).tokenFor policy ev.reason).getD (l.change policy ev).lastToken } := by
  obtain ⟨q, hq, hagain⟩ : ∃ q, (l.change policy ev).processes.get? ev.pid = some q ∧
      q.respond ev.reason (l.bindingFor ev) = q := by
    refine ⟨{ p.respond ev.reason (l.bindingFor ev) with
      boost := (l.tokenFor policy ev.reason).map fun n => ⟨n, ev.reason⟩ }, ?_,
      TrackedProcess.respond_again rfl rfl hheld⟩
    rw [change_of_some hp]
    exact Table.get?_insert_self _ _ _
  rw [change_of_some hq, bindingFor_change hp hheld, hagain]
  unfold Table.adjust
  rw [hq]

end Lifecycle

end MemoryArbiter
