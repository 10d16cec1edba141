import MemoryArbiter.Proofs.Engine.Determination
import MemoryArbiter.Proofs.Engine.Report
import MemoryArbiter.Proofs.Lifecycle.Repetition

/-! # Delivering an event twice

An event that is delivered again right after the first time changes nothing and reports nothing,
accepted or not.  Only a boost that waits is armed anew, under the next token.
-/

namespace MemoryArbiter

namespace Engine

variable {e e' : Engine} {ev : Event} {r : Request} {pid : Int} {q : TrackedProcess}

/-- The request `r` finds nothing to do. -/
structure Idle (e : Engine) (r : Request) : Prop where
  state : e.after r = e
  report : e.reportOf r = {}

/-- The event `ev` arms a grace timer. -/
structure Arms (e : Engine) (ev : Event) : Prop where
  isBoost : ev.reason.isBoost = true
  period : e.settings.gracePeriod ≠ 0
  accepted : e.Accepts (.event ev)

/-- The engine with the boost by `ev` under the next token. -/
def rearmed (e : Engine) (ev : Event) : Engine :=
  e.reboost
    (fun pid boost => if pid = ev.pid then some ⟨e.lastToken + 1, ev.reason⟩ else boost)
    (e.lastToken + 1)

/-- What comes of `ev` when it has been delivered to `e` and is delivered again. -/
structure Absorbs (e : Engine) (ev : Event) : Prop where
  idle : ¬ e.Arms ev → (e.after (.event ev)).Idle (.event ev)
  state : e.Arms ev → (e.after (.event ev)).after (.event ev) = (e.after (.event ev)).rearmed ev
  report : e.Arms ev → (e.after (.event ev)).reportOf (.event ev) =
    { effects := [.cancelTimer ev.pid,
      .armTimer ev.pid ((e.after (.event ev)).lastToken + 1) e.settings.gracePeriod] }
  quiet : ((e.after (.event ev)).reportOf (.event ev)).changes = [] ∧
    ((e.after (.event ev)).reportOf (.event ev)).writes = []

/-! ### Nothing to do -/

theorem Sound.idle_of_refused (h : e.Sound) (hno : ¬ e.Accepts r) : e.Idle r :=
  ⟨h.after_of_refused hno, reportOf_of_refused hno⟩

theorem idle_of_step (hstep : e.step r = (e, .ok {})) : e.Idle r :=
  ⟨by rw [← step_fst, hstep], reportOf_of_ok (by rw [hstep])⟩

theorem absorbs_of_idle (hno : ¬ e.Arms ev) (hidle : (e.after (.event ev)).Idle (.event ev)) :
    e.Absorbs ev := by
  refine ⟨fun _ => hidle, fun harms => absurd harms hno, fun harms => absurd harms hno, ?_⟩
  rw [hidle.report]
  exact ⟨rfl, rfl⟩

theorem record_of_none {uid : Int} (hu : e.bundles.get? uid = none) (j : Journal) :
    e.record uid j = j := by
  unfold record
  rw [hu]
  cases j.former.get? uid <;> rfl

theorem not_arms_of_structural (hs : ev.reason.structural = true) : ¬ e.Arms ev := fun harms =>
  nomatch hs.symm.trans (Reason.structural_of_isBoost harms.isBoost)

/-- The report from a single note, on a bundle that has not moved. -/
theorem report_record (hb : e'.bundles = e.bundles) (uid : Int) (effects : List Effect) :
    e'.report (e.record uid { effects := effects }) = { effects := effects } := by
  cases hu : e.bundles.get? uid with
  | none =>
    have hentries : (∅ : Table Int Former).entries = [] := rfl
    rw [record_of_none hu]
    unfold report
    simp [hentries]
  | some b =>
    have hrec : e.record uid { effects := effects } =
        { former := (∅ : Table Int Former).insert uid ⟨b.name, b.account, some b.priority⟩
          effects := effects } := by
      unfold record
      rw [hu]
      rfl
    have hentries : ((∅ : Table Int Former).insert uid ⟨b.name, b.account, some b.priority⟩).entries =
        [(uid, ⟨b.name, b.account, some b.priority⟩)] := rfl
    rw [hrec]
    unfold report
    simp [hentries, changeOf, writesOf, hb, hu]

/-! ### A process is changed again -/

def boostBy (e : Engine) (ev : Event) : Option Boost :=
  (e.tokenFor ev.reason).map fun n => ⟨n, ev.reason⟩

theorem changeProcess_of_some {p : TrackedProcess} (hallowed : e.refusal? ev.targetUid ev.pid = none)
    (hp : e.processes.get? ev.pid = some p) : e.changeProcess ev =
      conclude
        ({ e with lastToken := (e.tokenFor ev.reason).getD e.lastToken }.putProcess
          { p.respond ev.reason (e.bindingFor ev) with boost := e.boostBy ev },
        { e with lastToken := (e.tokenFor ev.reason).getD e.lastToken }.record ev.targetUid
          { effects := e.timerEffects ev.pid p.boost (e.tokenFor ev.reason) }) := by
  unfold changeProcess
  simp only [hallowed, hp]
  rfl

theorem Sound.change_allowed (h : e.Sound) (hallowed : e.refusal? ev.targetUid ev.pid = none) :
    (e.changeProcess ev).1.lifecycle = e.lifecycle.change e.settings.policy ev ∧
      (e.changeProcess ev).1.refusal? ev.targetUid ev.pid = none := by
  have hl : (e.changeProcess ev).1.lifecycle = e.lifecycle.change e.settings.policy ev := by
    rw [h.lifecycle_changeProcess, lifecycle_refusal?, hallowed]
    rfl
  refine ⟨hl, ?_⟩
  rw [← lifecycle_refusal?, hl]
  unfold Lifecycle.refusal?
  rw [Lifecycle.bundles_change]
  rw [← lifecycle_refusal?] at hallowed
  exact hallowed

/-- Process by process, only that of `pid` gets another boost. -/
theorem Sound.adjust_boost (h : e.Sound) (pid : Int) (boost : Option Boost) :
    (e.lifecycle.processes.adjust pid fun q => { q with boost := boost }) =
      e.lifecycle.processes.map fun q =>
        { q with boost := if q.pid = pid then boost else q.boost } := by
  apply Table.ext_get?
  intro qid
  rw [Table.get?_adjust, Table.get?_map, lifecycle_process?]
  cases hq : e.processes.get? qid with
  | none => simp
  | some q =>
    have hqid : q.unpriced.pid = qid := (show q.pid = qid from h.pid_eq hq)
    by_cases hpid : pid = qid
    · simp [hpid, hqid]
    · have hne : q.unpriced.pid ≠ pid := fun he => hpid (he.symm.trans hqid)
      simp only [if_neg hpid, if_neg hne, Option.map_some]

/-- If no bundle moves, the report is about the timers alone. -/
theorem changeProcess_quiet {p : TrackedProcess} (hallowed : e.refusal? ev.targetUid ev.pid = none)
    (hp : e.processes.get? ev.pid = some p) (hb : (e.changeProcess ev).1.bundles = e.bundles) :
    (e.changeProcess ev).2 =
      .ok { effects := e.timerEffects ev.pid p.boost (e.tokenFor ev.reason) } := by
  rw [changeProcess_of_some hallowed hp] at hb ⊢
  exact congrArg Except.ok (report_record hb _ _)

theorem Sound.boost_after_change (h : e.Sound) (hallowed : e.refusal? ev.targetUid ev.pid = none)
    (hq : (e.changeProcess ev).1.processes.get? ev.pid = some q) : q.boost = e.boostBy ev := by
  obtain ⟨p, hp, -⟩ := h.tracks_of_refusal? hallowed
  have hpl : e.lifecycle.processes.get? ev.pid = some p.unpriced := by
    rw [lifecycle_process?, hp]
    rfl
  have hql := (e.changeProcess ev).1.lifecycle_process? ev.pid
  rw [(h.change_allowed hallowed).1, Lifecycle.change_of_some hpl, hq, Table.get?_insert_self] at hql
  exact (congrArg TrackedProcess.boost (Option.some.inj hql) :).symm

/-- When `ev` comes again, nothing but the boost is new. -/
theorem Sound.changeProcess_again (h : e.Sound) (hr : e.Regular)
    (hallowed : e.refusal? ev.targetUid ev.pid = none) (he : (e.changeProcess ev).1 = e') :
    e'.changeProcess ev =
      (e'.reboost (fun pid boost => if pid = ev.pid then e'.boostBy ev else boost)
        ((e'.tokenFor ev.reason).getD e'.lastToken),
      .ok { effects := e'.timerEffects ev.pid (e.boostBy ev) (e'.tokenFor ev.reason) }) := by
  obtain ⟨p, hp, -⟩ := h.tracks_of_refusal? hallowed
  obtain ⟨hl, hallowed'⟩ := h.change_allowed hallowed
  have h' : e'.Sound := he ▸ h.changeProcess ev
  have hset : e'.settings = e.settings := he ▸ (changeProcess_terms e ev).settings
  have hpl : e.lifecycle.processes.get? ev.pid = some p.unpriced := by
    rw [lifecycle_process?, hp]
    rfl
  rw [he] at hl hallowed'
  rw [← hset] at hl
  have hstate : (e'.changeProcess ev).1 =
      e'.reboost (fun pid boost => if pid = ev.pid then e'.boostBy ev else boost)
        ((e'.tokenFor ev.reason).getD e'.lastToken) := by
    have hterms := changeProcess_terms e' ev
    refine h'.reboost.eq_of_lifecycle (h'.changeProcess ev)
      ⟨hterms.settings, hterms.current, hterms.previous⟩ ?_
    have hheld : ∀ f ∈ p.unpriced.signals.floors, p.unpriced.level ≤ f :=
      (hr.of_allowed h hallowed hp).held
    have hagain := Lifecycle.change_again e'.settings.policy hpl hheld
    rw [← hl] at hagain
    rw [(h'.change_allowed hallowed').1, hagain, lifecycle_reboost, ← h'.adjust_boost]
    rfl
  obtain ⟨q, hq, -⟩ := h'.tracks_of_refusal? hallowed'
  refine Prod.ext hstate ?_
  rw [← h.boost_after_change hallowed (he ▸ hq)]
  refine changeProcess_quiet hallowed' hq ?_
  rw [hstate]
  rfl

theorem tokenFor_of_timed (hboost : ev.reason.isBoost = true) (hperiod : e.settings.gracePeriod ≠ 0) :
    e.tokenFor ev.reason = some (e.lastToken + 1) := by
  unfold tokenFor
  simp [hboost, hperiod]

theorem tokenFor_of_untimed (hno : ¬ (ev.reason.isBoost = true ∧ e.settings.gracePeriod ≠ 0)) :
    e.tokenFor ev.reason = none := by
  unfold tokenFor
  refine if_neg fun htimed => hno ?_
  simpa using htimed

theorem boostBy_of_timed (hboost : ev.reason.isBoost = true) (hperiod : e.settings.gracePeriod ≠ 0) :
    e.boostBy ev = some ⟨e.lastToken + 1, ev.reason⟩ := by
  unfold boostBy
  rw [tokenFor_of_timed hboost hperiod]
  rfl

theorem boostBy_of_untimed (hno : ¬ (ev.reason.isBoost = true ∧ e.settings.gracePeriod ≠ 0)) :
    e.boostBy ev = none := by
  unfold boostBy
  rw [tokenFor_of_untimed hno]
  rfl

theorem Sound.after_again (h : e.Sound) (hr : e.Regular) (hplain : ev.reason.structural = false)
    (hallowed : e.refusal? ev.targetUid ev.pid = none) (he : e.after (.event ev) = e') :
    e'.after (.event ev) =
        e'.reboost (fun pid boost => if pid = ev.pid then e'.boostBy ev else boost)
          ((e'.tokenFor ev.reason).getD e'.lastToken) ∧
      e'.reportOf (.event ev) =
        { effects := e'.timerEffects ev.pid (e.boostBy ev) (e'.tokenFor ev.reason) } := by
  have hfirst : (e.changeProcess ev).1 = e' := by
    rw [← he, ← step_fst]
    exact congrArg Prod.fst (update_of_change hplain).symm
  have hstep : e'.step (.event ev) = e'.changeProcess ev := update_of_change hplain
  have hagain := hstep.trans (h.changeProcess_again hr hallowed hfirst)
  exact ⟨(e'.step_fst _).symm.trans (congrArg Prod.fst hagain),
    reportOf_of_ok (congrArg Prod.snd hagain)⟩

theorem Sound.absorbs_timed (h : e.Sound) (hr : e.Regular) (hplain : ev.reason.structural = false)
    (hallowed : e.refusal? ev.targetUid ev.pid = none) (hboost : ev.reason.isBoost = true)
    (hperiod : e.settings.gracePeriod ≠ 0) : e.Absorbs ev := by
  have harms : e.Arms ev := ⟨hboost, hperiod, (h.accepts_change_iff hplain).mpr hallowed⟩
  obtain ⟨hstate, hreport⟩ := h.after_again hr hplain hallowed rfl
  have hset : (e.after (.event ev)).settings = e.settings := after_settings e _
  have hperiod' : (e.after (.event ev)).settings.gracePeriod ≠ 0 := by
    rw [hset]
    exact hperiod
  rw [boostBy_of_timed hboost hperiod', tokenFor_of_timed hboost hperiod'] at hstate
  rw [boostBy_of_timed hboost hperiod, tokenFor_of_timed hboost hperiod'] at hreport
  have heffects : (e.after (.event ev)).timerEffects ev.pid (some ⟨e.lastToken + 1, ev.reason⟩)
      (some ((e.after (.event ev)).lastToken + 1)) = [.cancelTimer ev.pid,
        .armTimer ev.pid ((e.after (.event ev)).lastToken + 1) e.settings.gracePeriod] := by
    unfold timerEffects
    rw [hset]
    rfl
  rw [heffects] at hreport
  refine ⟨fun hno => absurd harms hno, fun _ => hstate, fun _ => hreport, ?_⟩
  rw [hreport]
  exact ⟨rfl, rfl⟩

theorem Sound.absorbs_untimed (h : e.Sound) (hr : e.Regular) (hplain : ev.reason.structural = false)
    (hallowed : e.refusal? ev.targetUid ev.pid = none)
    (hno : ¬ (ev.reason.isBoost = true ∧ e.settings.gracePeriod ≠ 0)) : e.Absorbs ev := by
  obtain ⟨hstate, hreport⟩ := h.after_again hr hplain hallowed rfl
  have hset : (e.after (.event ev)).settings = e.settings := after_settings e _
  have hno' : ¬ (ev.reason.isBoost = true ∧ (e.after (.event ev)).settings.gracePeriod ≠ 0) := by
    rw [hset]
    exact hno
  rw [boostBy_of_untimed hno', tokenFor_of_untimed hno'] at hstate
  rw [boostBy_of_untimed hno, tokenFor_of_untimed hno'] at hreport
  -- no boost waits for the process after the first time
  have hsame : (e.after (.event ev)).reboost (fun pid boost => if pid = ev.pid then none else boost)
      (e.after (.event ev)).lastToken = e.after (.event ev) := by
    refine reboost_of_same fun pid q hq => ?_
    split
    · next hpid =>
      have hown : q.pid = pid := (h.after (.event ev)).pid_eq hq
      rw [← hown, hpid, ← step_fst, show e.step (.event ev) = _ from update_of_change hplain] at hq
      rw [h.boost_after_change hallowed hq, boostBy_of_untimed hno]
    · rfl
  exact absorbs_of_idle (fun harms => hno ⟨harms.isBoost, harms.period⟩)
    ⟨hstate.trans hsame, hreport⟩

/-! ### Reason by reason -/

theorem Sound.tracks_after_create (h : e.Sound) (hreason : ev.reason = .createProcess) :
    (e.update ev).1.Tracks ev.targetUid ev.pid := by
  rw [← lifecycle_tracks_iff, h.lifecycle_update, Lifecycle.update_of_create hreason]
  split
  · assumption
  · unfold Lifecycle.tracks Lifecycle.add
    simp [TrackedProcess.start, TrackedProcess.unpriced]

theorem Sound.not_tracks_after_terminate (h : e.Sound) (hreason : ev.reason = .processTerminated) :
    ¬ (e.update ev).1.Tracks ev.targetUid ev.pid := by
  rw [update_of_terminate hreason]
  by_cases htr : e.Tracks ev.targetUid ev.pid
  · rw [untrack_of_tracks htr]
    rintro ⟨p, hp, -⟩
    exact nomatch (h.dropProcess_get?_self ev.pid {}).symm.trans hp
  · rw [untrack_refused (untrack_error_iff.mpr ⟨htr, rfl⟩)]
    exact htr

theorem Sound.idle_ready (h : e.Sound) (hreason : ev.reason = .processReady) :
    e.Idle (.event ev) := by
  have hstep : e.step (.event ev) = e.noteReady ev := update_of_ready hreason
  cases hr : e.refusal? ev.targetUid ev.pid with
  | some x =>
    refine h.idle_of_refused (not_accepts_iff.mpr ⟨x, ?_⟩)
    rw [hstep]
    exact noteReady_error_iff.mpr hr
  | none =>
    refine idle_of_step (hstep.trans ?_)
    unfold Engine.noteReady
    rw [hr]

/-- A process that has come is there, one that has gone is not, and the account is in the
foreground. -/
theorem Sound.idle_again (h : e.Sound) (hs : ev.reason.structural = true) :
    (e.after (.event ev)).Idle (.event ev) := by
  have h' : (e.after (.event ev)).Sound := h.after _
  rcases ev.reason.structural_cases with hre | hre | hre | hre | hre
  · exact nomatch hs.symm.trans hre
  · have hstep : (e.after (.event ev)).step (.event ev) = (e.after (.event ev)).track ev :=
      update_of_create hre
    exact idle_of_step (hstep.trans (track_of_tracks (h.tracks_after_create hre)))
  · exact h'.idle_ready hre
  · have hrefuses := Refuses.untracked hre (h.not_tracks_after_terminate hre)
    exact h'.idle_of_refused (not_accepts_iff.mpr ⟨_, h'.update_error_iff.mpr hrefuses⟩)
  · have hcurrent : (e.after (.event ev)).current = some (accountOf ev.targetUid) := by
      show (e.update ev).1.current = _
      rw [update_of_switch hre]
      exact switchTo_current e _
    have hrefuses := Refuses.sameAccount hre hcurrent
    exact h'.idle_of_refused (not_accepts_iff.mpr ⟨_, h'.update_error_iff.mpr hrefuses⟩)

/-- Whatever is delivered, the second time finds it done. -/
theorem Sound.absorbs (h : e.Sound) (hr : e.Regular) (ev : Event) : e.Absorbs ev := by
  cases hs : ev.reason.structural with
  | true => exact absorbs_of_idle (not_arms_of_structural hs) (h.idle_again hs)
  | false =>
    cases hallowed : e.refusal? ev.targetUid ev.pid with
    | none =>
      by_cases htimed : ev.reason.isBoost = true ∧ e.settings.gracePeriod ≠ 0
      · exact h.absorbs_timed hr hs hallowed htimed.1 htimed.2
      · exact h.absorbs_untimed hr hs hallowed htimed
    | some x =>
      have hno : ¬ e.Accepts (.event ev) := by
        rw [h.accepts_change_iff hs, hallowed]
        exact fun hx => nomatch hx
      refine absorbs_of_idle (fun harms => hno harms.accepted) ?_
      rw [h.after_of_refused hno]
      exact h.idle_of_refused hno

theorem run_absorbs (settings : Settings) (requests : List Request) (ev : Event) :
    (run settings requests).Absorbs ev :=
  (run_sound settings requests).absorbs (run_regular settings requests) ev

/-- A process of the foreground account is bound to its own bundle, and the news comes twice. -/
example :
    let bind : Request := .sent .bindExtension 1 20000001 (some 20000001)
    let e := run {} [.switchTo 100, .sent .createProcess 1 20000001 none, bind]
    (e.reportOf bind).effects = [.cancelTimer 1, .armTimer 1 2 20000] ∧
      (e.after bind).snapshot = e.snapshot := by decide

end Engine

end MemoryArbiter
