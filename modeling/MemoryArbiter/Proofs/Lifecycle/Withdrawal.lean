import MemoryArbiter.Proofs.Engine.Range

/-! # What the end of a keep-alive does

When a signal ends or a boost runs out, a process becomes no more important, and neither does its
bundle, as long as its priority does not wrap around.  There is one exception: a binding may hold a
process behind the background, and its end still takes the process to the background.
-/

namespace MemoryArbiter

def Reason.ends : Reason → Bool
  | .suspendDelayEnd | .backgroundRunningEnd | .eventEnd | .dataAbilityEnd | .unVisible
  | .distDeviceDisconnected | .unbindExtension => true
  | _ => false

/-- The process from which `r` takes a signal or a boost. -/
def Request.withdrawsFrom? : Request → Option Int
  | .event ev => if ev.reason.ends then some ev.pid else none
  | .expireBoost pid _ => some pid
  | _ => none

theorem Reason.structural_of_ends {r : Reason} (h : r.ends = true) : r.structural = false := by
  cases r <;> simp_all [ends, structural]

theorem Reason.undo?_cases {boost undo : Reason} (h : boost.undo? = some undo) :
    undo.ends = true ∨ boost = .abilityStart ∧ undo = .background := by
  cases boost <;> simp_all [undo?, ends] <;> simp [← h]

namespace TrackedProcess

variable {p q : TrackedProcess} {reason : Reason} {binding : Option Binding} {floor n : Int}

/-! ### One reason -/

theorem level_le_unperceived (p : TrackedProcess) : p.level ≤ p.unperceived := by
  have hlt : Level.perceived < Level.background := by decide
  unfold unperceived
  split <;> omega

theorem le_holdAll (hlevel : n ≤ p.level) (hfloors : ∀ f ∈ p.signals.floors, n ≤ f) :
    n ≤ p.holdAll.level := by
  have hstart := p.level_le_unperceived
  rcases p.holdAll_level_spec.1 with hl | hl
  · omega
  · exact hfloors _ hl

theorem level_le_letGo (hfloor : floor ≤ Level.background) : p.level ≤ (p.letGo floor).level := by
  unfold letGo
  split
  · next hl =>
    show p.level ≤ Level.background
    omega
  · exact Int.le_refl _

theorem floors_react_of_ends (hr : reason.ends = true) {f : Int}
    (hf : f ∈ (p.react reason binding).signals.floors) : f ∈ p.signals.floors := by
  cases reason with
  | unbindExtension =>
    unfold react at hf
    cases hb : p.signals.binding with
    | none =>
      simp only [hb] at hf
      exact hf
    | some old =>
      simp only [hb, letGo_signals] at hf
      rw [Signals.mem_floors] at hf ⊢
      grind [Signals.perceived]
  | suspendDelayEnd | backgroundRunningEnd | eventEnd | dataAbilityEnd | unVisible
  | distDeviceDisconnected =>
    simp only [react, letGo_signals] at hf
    rw [Signals.mem_floors] at hf ⊢
    grind [Signals.perceived]
  | _ => cases hr

/-- Its binding holds `p` behind the background, and `reason` ends the binding. -/
structure Rebounds (p : TrackedProcess) (reason : Reason) : Prop where
  unbinds : reason = .unbindExtension
  bound : ∃ b, p.signals.binding = some b ∧ b.floor = p.level
  behind : Level.background < p.level

theorem level_le_react (hr : reason.ends = true) (hno : ¬ p.Rebounds reason) :
    p.level ≤ (p.react reason binding).level := by
  cases reason with
  | suspendDelayEnd => exact level_le_letGo (p := { p with signals := _ }) (by decide)
  | unVisible => exact level_le_letGo (p := { p with signals := _ }) (by decide)
  | distDeviceDisconnected => exact level_le_letGo (p := { p with signals := _ }) (by decide)
  | backgroundRunningEnd | eventEnd | dataAbilityEnd => exact Int.le_refl _
  | unbindExtension =>
    unfold react
    cases hb : p.signals.binding with
    | none =>
      simp only [hb]
      exact Int.le_refl _
    | some old =>
      simp only [hb, letGo]
      split
      · next hl =>
        have hahead : ¬ Level.background < p.level := fun hlt => hno ⟨rfl, ⟨old, hb, hl.symm⟩, hlt⟩
        show p.level ≤ Level.background
        omega
      · exact Int.le_refl _
  | _ => cases hr

theorem Regular.level_le_respond (h : p.Regular) (hr : reason.ends = true)
    (hno : ¬ p.Rebounds reason) : p.level ≤ (p.respond reason binding).level :=
  le_holdAll (level_le_react hr hno) fun f hf => h.held f (floors_react_of_ends hr hf)

theorem Regular.respond_of_rebounds (h : p.Regular) (hrebound : p.Rebounds reason) :
    (p.respond reason binding).level = Level.background := by
  obtain ⟨rfl, ⟨old, hb, hfloor⟩, hlt⟩ := hrebound
  have hends : Reason.ends .unbindExtension = true := rfl
  let q := p.react .unbindExtension binding
  have hlevel : q.level = Level.background := by
    show (p.react .unbindExtension binding).level = _
    unfold react
    simp only [hb, letGo, hfloor, if_true]
  have hstart : q.unperceived = Level.background := by
    have hne : q.level ≠ Level.perceived := by
      rw [hlevel]
      decide
    exact (if_neg fun hp => hne hp.2).trans hlevel
  obtain ⟨hcases, hle, -⟩ := q.holdAll_level_spec
  show q.holdAll.level = _
  -- the floors that are left are all further behind
  rcases hcases with hl | hl
  · exact hl.trans hstart
  · have hfar := h.held _ (floors_react_of_ends hends hl)
    omega

theorem Regular.respond_lt_iff (h : p.Regular) (hr : reason.ends = true) :
    (p.respond reason binding).level < p.level ↔ p.Rebounds reason := by
  constructor
  · intro hlt
    by_cases hrebound : p.Rebounds reason
    · exact hrebound
    · have hle : p.level ≤ (p.respond reason binding).level := h.level_le_respond hr hrebound
      omega
  · intro hrebound
    rw [h.respond_of_rebounds hrebound]
    exact hrebound.behind

theorem Proper.respond_abilityStart (h : p.Proper) (hbinding : ∀ b ∈ binding, b.floor ∈ Level.floors) :
    (p.respond .abilityStart binding).level = Level.foreground := by
  have hfront : (p.respond .abilityStart binding).signals.foreground = true := by
    unfold TrackedProcess.respond
    rw [holdAll_signals]
    rfl
  exact (h.respond hbinding).foreground.mp hfront

structure Yields (p q : TrackedProcess) (reason : Reason) : Prop where
  level_lt_iff : q.level < p.level ↔ p.Rebounds reason
  level_eq : p.Rebounds reason → q.level = Level.background

theorem Regular.yields (h : p.Regular) (hr : reason.ends = true)
    (hq : q.level = (p.respond reason binding).level) : p.Yields q reason := by
  constructor
  · rw [hq]
    exact h.respond_lt_iff hr
  · rw [hq]
    exact h.respond_of_rebounds

theorem Yields.of_freed (h : { p with boost := none }.Yields q reason) : p.Yields q reason :=
  ⟨h.level_lt_iff.trans ⟨fun ⟨h₁, h₂, h₃⟩ => ⟨h₁, h₂, h₃⟩, fun ⟨h₁, h₂, h₃⟩ => ⟨h₁, h₂, h₃⟩⟩,
    fun ⟨h₁, h₂, h₃⟩ => h.level_eq ⟨h₁, h₂, h₃⟩⟩

end TrackedProcess

theorem Lifecycle.boost_after_change {l : Lifecycle} {policy : Policy} {ev : Event}
    {p q : TrackedProcess} {b : Boost} (hr : ev.reason.structural = false)
    (hallowed : l.refusal? ev.targetUid ev.pid = none) (hq : l.processes.get? ev.pid = some q)
    (hp : (l.after policy (.event ev)).processes.get? ev.pid = some p) (hb : p.boost = some b) :
    b.reason = ev.reason := by
  have hp' : (l.update policy ev).processes.get? ev.pid = some p := hp
  rw [update_of_change hr, hallowed, if_neg (by simp)] at hp'
  unfold change at hp'
  rw [hq] at hp'
  simp only [Table.get?_insert_self, Option.some.injEq] at hp'
  subst hp'
  obtain ⟨n, -, rfl⟩ := Option.map_eq_some_iff.mp hb
  rfl

namespace Engine

variable {e e' : Engine} {r : Request} {ev : Event} {pid : Int} {p q : TrackedProcess}
  {b c : Bundle}

/-! ### Boosts by the start of an ability -/

def Poised (e : Engine) : Prop :=
  ∀ pid p b, e.processes.get? pid = some p → p.boost = some b → b.reason = .abilityStart →
    p.level = Level.foreground

theorem Sound.poised_after (h : e.Sound) (hr : e.Regular) (hpoised : e.Poised) (r : Request) :
    (e.after r).Poised := by
  intro pid p b hp hboost hreason
  have hpl := h.lifecycle_after_process? hp
  have hboost' : p.unpriced.boost = some b := hboost
  show p.unpriced.level = _
  have horigin := Lifecycle.process?_after hpl
  generalize p.unpriced = l at hpl hboost' horigin
  cases horigin with
  | kept _ hq =>
    rw [lifecycle_process?] at hq
    obtain ⟨q₀, hq₀, rfl⟩ := Option.map_eq_some_iff.mp hq
    exact hpoised pid q₀ b hq₀ hboost' hreason
  | started ev hasked hcreate hpid hnew => cases hboost'
  | changed ev hasked hplain hpid hallowed q hq boost =>
    subst hasked hpid
    have hby := Lifecycle.boost_after_change hplain hallowed hq hpl hboost'
    rw [lifecycle_refusal?] at hallowed
    rw [lifecycle_process?] at hq
    obtain ⟨q₀, hq₀, rfl⟩ := Option.map_eq_some_iff.mp hq
    have hproper : q₀.unpriced.Proper := (hr.of_allowed h hallowed hq₀).toProper.of_eq rfl rfl
    have hbinding := hr.bindingFor h ev
    rw [← lifecycle_bindingFor] at hbinding
    show (q₀.unpriced.respond ev.reason _).level = _
    rw [← hby, hreason]
    exact hproper.respond_abilityStart hbinding
  | expired token hasked q hq boost hwaiting reason hundo => simp at hboost'

theorem run_poised (settings : Settings) (requests : List Request) :
    (run settings requests).Poised := by
  have hboth : (run settings requests).Regular ∧ (run settings requests).Poised :=
    run_sound_induction (P := fun e => e.Regular ∧ e.Poised)
      ⟨regular_new settings, fun _ _ _ hp => nomatch hp⟩
      (fun _ r h hboth => ⟨h.regular_after hboth.1 r, h.poised_after hboth.1 hboth.2 r⟩) requests
  exact hboth.2

/-! ### One record is replaced -/

/-- From `e` to `e'` the record of the process `pid` has changed from `p` to `q`. -/
structure Replaces (e e' : Engine) (pid : Int) (p q : TrackedProcess) : Prop where
  before : e.processes.get? pid = some p
  after : e'.processes.get? pid = some q
  uid : q.uid = p.uid
  others : ∀ i, i ≠ pid → e'.processes.get? i = e.processes.get? i
  terms : e.SameTerms e'
  bundle : ∀ b, e.bundles.get? p.uid = some b →
    ∃ c, e'.bundles.get? p.uid = some c ∧ c.pinned = b.pinned

theorem replaces_putProcess (hp : e.processes.get? pid = some p) (hpid : q.pid = pid)
    (huid : q.uid = p.uid) : ∃ q', e.Replaces (e.putProcess q) pid p q' ∧ q'.level = q.level := by
  have hget : ∀ i, (e.putProcess q).processes.get? i =
      if pid = i then some (e.repriced q) else e.processes.get? i := by
    intro i
    rw [putProcess_eq_withProcess, updateBundle_processes, withProcess_get?, hpid]
  refine ⟨e.repriced q, ⟨hp, by rw [hget, if_pos rfl], huid, ?_, putProcess_terms q, ?_⟩, rfl⟩
  · intro i hi
    rw [hget, if_neg (Ne.symm hi)]
  · intro b hb
    have hb' : (e.withProcess q).bundles.get? q.uid = some b := by
      rw [huid]
      exact hb
    rw [putProcess_eq_withProcess, updateBundle_of_some hb', ← huid]
    exact ⟨_, Table.get?_insert_self _ _ _, rfl⟩

theorem Replaces.priority_lt_iff (hr : e.Replaces e' pid p q) (h : e.Sound) (h' : e'.Sound)
    (hb : e.bundles.get? p.uid = some b) (hc : e'.bundles.get? p.uid = some c) :
    c.priority < b.priority ↔ q.priority < b.priority := by
  have hleast := (h.priced p.uid).bundle b hb
  have hleast' := (h'.priced p.uid).bundle c hc
  constructor
  · intro hlt
    obtain ⟨i, s, hs, hu, hprio⟩ := hleast'.attained
    by_cases hi : i = pid
    · subst hi
      obtain rfl := Option.some.inj (hs.symm.trans hr.after)
      omega
    · rw [hr.others i hi] at hs
      have hle := hleast.le i s hs hu
      omega
  · intro hlt
    have hle := hleast'.le pid q hr.after hr.uid
    omega

theorem Replaces.level_lt (hr : e.Replaces e' pid p q) (h : e.Sound) (h' : e'.Sound)
    (hb : e.bundles.get? p.uid = some b)
    (hfits : e.Fits p) (hfits' : e.Fits q) (hlt : q.priority < b.priority) :
    q.level < p.level := by
  obtain ⟨c, hc, hpin⟩ := hr.bundle b hb
  have hle := ((h.priced p.uid).bundle b hb).le pid p hr.before rfl
  have hprio := (h.priced p.uid).process pid p b hr.before rfl hb
  have hprio' := (h'.priced p.uid).process pid q c hr.after hr.uid hc
  unfold Fits at hfits'
  unfold due at hprio hprio'
  rw [hr.uid] at hfits'
  rw [hpin, hr.uid, hr.terms.dueOffset, hr.terms.settings] at hprio'
  by_cases hlevel : q.level < p.level
  · exact hlevel
  · have hmoved := moved_le_moved (Int.not_lt.mp hlevel) hfits hfits' e.settings.clamp
    split at hprio
    · next hpinned =>
      rw [if_pos hpinned] at hprio'
      omega
    · next hpinned =>
      rw [if_neg hpinned] at hprio'
      omega

theorem Replaces.fits (hr : e.Replaces e' pid p q) (hregular : e.Regular) (hregular' : e'.Regular)
    (hb : e.bundles.get? p.uid = some b) (hpin : b.pinned = false) (hroomy : e.settings.Roomy) :
    e.Fits p ∧ e.Fits q := by
  obtain ⟨c, hc, hcpin⟩ := hr.bundle b hb
  rw [← hr.uid] at hc
  have hlevel := (hregular.ordinary pid p b hr.before hb hpin).level
  have hlevel' := (hregular'.ordinary pid q c hr.after hc (hcpin.trans hpin)).level
  exact ⟨fitsInt32_moved hroomy hlevel _, fitsInt32_moved hroomy hlevel' _⟩

theorem Replaces.of_lastToken {n : Nat} (hr : { e with lastToken := n }.Replaces e' pid p q) :
    e.Replaces e' pid p q :=
  ⟨hr.before, hr.after, hr.uid, hr.others, ⟨hr.terms.settings, hr.terms.current, hr.terms.previous⟩,
    hr.bundle⟩

/-! ### The requests that take a keep-alive away -/

/-- The reason under which `r` comes to the rules. -/
def cause? (e : Engine) : Request → Option Reason
  | .event ev => some ev.reason
  | .expireBoost pid _ => (e.boost? pid).bind fun b => b.reason.undo?
  | _ => none

theorem Sound.accepts_change_iff (h : e.Sound) (hr : ev.reason.structural = false) :
    e.Accepts (.event ev) ↔ e.refusal? ev.targetUid ev.pid = none := by
  have hstep : e.step (.event ev) = e.changeProcess ev := update_of_change hr
  unfold Accepts
  rw [hstep]
  cases hok : (e.changeProcess ev).2 with
  | ok report =>
    refine iff_of_true ⟨report, rfl⟩ (Option.eq_none_iff_forall_ne_some.mpr fun x hx => ?_)
    exact nomatch hok.symm.trans (h.changeProcess_error_iff.mpr hx)
  | error x =>
    rw [h.changeProcess_error_iff.mp hok]
    exact iff_of_false (fun ⟨_, hne⟩ => nomatch hne) (Option.some_ne_none x)

theorem Sound.withdraw_event (h : e.Sound) (hr : e.Regular) (hends : ev.reason.ends = true)
    (hacc : e.Accepts (.event ev)) :
    ∃ p q, e.Replaces (e.after (.event ev)) ev.pid p q ∧ p.Regular ∧ p.Yields q ev.reason := by
  have hplain := Reason.structural_of_ends hends
  have hallowed := (h.accepts_change_iff hplain).mp hacc
  have hstep : e.step (.event ev) = e.changeProcess ev := update_of_change hplain
  obtain ⟨report, hok⟩ := hacc
  rw [hstep] at hok
  obtain ⟨p, hp, hpid, -, hafter, -⟩ := h.changeProcess_ok hok
  obtain ⟨hrp, hru⟩ := p.respond_ids ev.reason (e.bindingFor ev)
  obtain ⟨q, hreplaces, hlevel⟩ := replaces_putProcess
    (e := { e with lastToken := (e.tokenFor ev.reason).getD e.lastToken })
    (q := { p.respond ev.reason (e.bindingFor ev) with
      boost := (e.tokenFor ev.reason).map fun n => ⟨n, ev.reason⟩ }) hp (hrp.trans hpid) hru
  have hregular := hr.of_allowed h hallowed hp
  refine ⟨p, q, ?_, hregular, hregular.yields hends hlevel⟩
  rw [← step_fst, hstep, hafter]
  exact hreplaces.of_lastToken

theorem Sound.withdraw_expiry (h : e.Sound) (hr : e.Regular) (hpoised : e.Poised) {token : Nat}
    (hacc : e.Accepts (.expireBoost pid token)) :
    ∃ p q reason, e.Replaces (e.after (.expireBoost pid token)) pid p q ∧
      e.cause? (.expireBoost pid token) = some reason ∧ p.Regular ∧ p.Yields q reason := by
  obtain ⟨report, hok⟩ := hacc
  obtain ⟨p, b, undo, hp, hb, -, hundo, hafter, -⟩ := expireBoost_ok hok
  obtain ⟨hrp, hru⟩ := { p with boost := none }.respond_ids undo none
  obtain ⟨q, hreplaces, hlevel⟩ := replaces_putProcess hp
    (hrp.trans (show p.pid = pid from h.pid_eq hp)) hru
  have hregular : p.Regular := by
    obtain ⟨-, c, hc⟩ := (h.housed p.uid).process pid p hp rfl
    cases hpin : c.pinned with
    | false => exact hr.ordinary pid p c hp hc hpin
    | true => exact nomatch hb.symm.trans (hr.pinned pid p c hp hc hpin).boost
  have hfreed : { p with boost := none }.Regular := hregular.of_eq rfl rfl
  refine ⟨p, q, undo, ?_, ?_, hregular, ?_⟩
  · have hafter' : e.after (.expireBoost pid token) = _ := hafter
    rw [hafter']
    exact hreplaces
  · show (e.boost? pid).bind _ = _
    rw [boost?_of_get? hp, hb]
    exact hundo
  · rcases Reason.undo?_cases hundo with hends | ⟨hstart, rfl⟩
    · exact (hfreed.yields hends hlevel).of_freed
    -- from the foreground no level is a promotion
    · have hfront := hpoised pid p b hp hb hstart
      have hnext : ({ p with boost := none }.respond .background none).Regular :=
        hfreed.toProper.respond fun _ hnone => nomatch hnone
      have hmin := (Level.bounds_of_mem_ordinary hnext.level).1
      have hno : ¬ p.Rebounds .background := fun hrebound => nomatch hrebound.unbinds
      exact ⟨iff_of_false (by omega) hno, fun hrebound => absurd hrebound hno⟩

theorem Sound.withdraw (h : e.Sound) (hr : e.Regular) (hpoised : e.Poised)
    (hfrom : r.withdrawsFrom? = some pid) (hacc : e.Accepts r) :
    ∃ p q reason, e.Replaces (e.after r) pid p q ∧ e.cause? r = some reason ∧ p.Regular ∧
      p.Yields q reason := by
  cases r with
  | event ev =>
    obtain ⟨hends, hpid⟩ : ev.reason.ends = true ∧ ev.pid = pid := by
      simpa [Request.withdrawsFrom?] using hfrom
    subst hpid
    obtain ⟨p, q, hreplaces, hregular, hyields⟩ := h.withdraw_event hr hends hacc
    exact ⟨p, q, ev.reason, hreplaces, rfl, hregular, hyields⟩
  | expireBoost qid token =>
    obtain rfl := Option.some.inj hfrom
    exact h.withdraw_expiry hr hpoised hacc
  | _ => cases hfrom

/-- What a withdrawal makes of a process `p` in a bundle `b` of `e`: neither becomes more important,
unless a binding has ended that held the process behind the background. -/
structure Withdrawn (e : Engine) (p q : TrackedProcess) (b c : Bundle) (reason : Reason) : Prop
    extends p.Yields q reason where
  priority_lt_iff : c.priority < b.priority ↔ q.priority < b.priority
  /-- A priority that wraps around says nothing of the level. -/
  rebounds : e.Fits p → e.Fits q → c.priority < b.priority → p.Rebounds reason
  /-- For most shifts, among them all that are not negative, none does. -/
  room : e.settings.Roomy → e.Fits p ∧ e.Fits q

theorem run_withdrawn (settings : Settings) (requests : List Request) (r : Request) (pid : Int)
    (hfrom : r.withdrawsFrom? = some pid) (hacc : (run settings requests).Accepts r) :
    ∃ p q b c reason, (run settings requests).processes.get? pid = some p ∧
      ((run settings requests).after r).processes.get? pid = some q ∧ q.uid = p.uid ∧
      (run settings requests).bundles.get? p.uid = some b ∧
      ((run settings requests).after r).bundles.get? p.uid = some c ∧
      (run settings requests).cause? r = some reason ∧
      (run settings requests).Withdrawn p q b c reason := by
  have h := run_sound settings requests
  have hr := run_regular settings requests
  obtain ⟨p, q, reason, hreplaces, hcause, hregular, hyields⟩ :=
    h.withdraw hr (run_poised settings requests) hfrom hacc
  obtain ⟨-, b, hb⟩ := (h.housed p.uid).process pid p hreplaces.before rfl
  obtain ⟨c, hc, -⟩ := hreplaces.bundle b hb
  have hiff := hreplaces.priority_lt_iff h (h.after r) hb hc
  refine ⟨p, q, b, c, reason, hreplaces.before, hreplaces.after, hreplaces.uid, hb, hc, hcause,
    hyields, hiff, fun hfits hfits' hlt => ?_, ?_⟩
  · have hlevel := hreplaces.level_lt h (h.after r) hb hfits hfits' (hiff.mp hlt)
    exact hyields.level_lt_iff.mp hlevel
  · have hpin := hr.pinned_eq_false hregular hreplaces.before hb
    exact hreplaces.fits hr (h.regular_after hr r) hb hpin

/-- The end of a binding by the foreground takes a process back to the background. -/
theorem withdrawn_from_caller :
    ∃ (settings : Settings) (requests : List Request) (r : Request) (p q : TrackedProcess)
      (b c : Bundle), r.withdrawsFrom? = some 1 ∧ (run settings requests).Accepts r ∧
      (run settings requests).processes.get? 1 = some p ∧
      ((run settings requests).after r).processes.get? 1 = some q ∧
      (run settings requests).Withdrawn p q b c .unbindExtension ∧ p.level = Level.visible ∧
      q.level = Level.background := by
  let requests := twoCallers ++ [.sent .bindExtension 1 20000001 (some 20000002)]
  let r : Request := .sent .unbindExtension 1 20000001 none
  have hacc : (run {} requests).Accepts r :=
    ((run_sound {} requests).accepts_change_iff rfl).mpr (by decide)
  obtain ⟨p, q, b, c, reason, hp, hq, -, -, -, hcause, hwithdrawn⟩ :=
    run_withdrawn {} requests r 1 rfl hacc
  obtain rfl := Option.some.inj hcause
  have hbefore : ((run {} requests).processes.get? 1).map TrackedProcess.level =
      some Level.visible := by decide
  have hafter : (((run {} requests).after r).processes.get? 1).map TrackedProcess.level =
      some Level.background := by decide
  rw [hp] at hbefore
  rw [hq] at hafter
  exact ⟨{}, requests, r, p, q, b, c, rfl, hacc, hp, hq, hwithdrawn, Option.some.inj hbefore,
    Option.some.inj hafter⟩

def frozenPair : List Request :=
  [.sent .createProcess 1 20000001 none, .sent .createProcess 2 20000002 none,
    .sent .freeze 1 20000001 none, .sent .freeze 2 20000002 none,
    .sent .bindExtension 1 20000001 (some 20000002)]

/-- Without its binding, which has not raised it, a frozen process is in the background. -/
theorem promoted_by_unbinding :
    ¬ ∀ (settings : Settings) (requests : List Request) (r : Request) (pid : Int),
      r.withdrawsFrom? = some pid → (run settings requests).Accepts r →
      ∀ p q, (run settings requests).processes.get? pid = some p →
        ((run settings requests).after r).processes.get? pid = some q →
        p.level ≤ q.level ∧ ∀ b c, (run settings requests).bundles.get? p.uid = some b →
          ((run settings requests).after r).bundles.get? p.uid = some c →
          b.priority ≤ c.priority := by
  let r : Request := .sent .unbindExtension 1 20000001 none
  intro h
  have hacc : (run {} frozenPair).Accepts r :=
    ((run_sound {} frozenPair).accepts_change_iff rfl).mpr (by decide)
  have hbefore : ((run {} frozenPair).processes.get? 1).map TrackedProcess.level =
      some Level.frozen := by decide
  have hafter : (((run {} frozenPair).after r).processes.get? 1).map TrackedProcess.level =
      some Level.background := by decide
  obtain ⟨p, hp, hlevel⟩ := Option.map_eq_some_iff.mp hbefore
  obtain ⟨q, hq, hlevel'⟩ := Option.map_eq_some_iff.mp hafter
  obtain ⟨hle, -⟩ := h {} frozenPair r 1 rfl hacc p q hp hq
  rw [hlevel, hlevel'] at hle
  exact absurd hle (by decide)

end Engine

end MemoryArbiter
