import MemoryArbiter.Proofs.Engine.Soundness

/-! # What a run reports

`Engine.after` tells which engine a request leaves behind.  `Engine.step` is the whole answer to a
request, and `Engine.history` lists the reports of a run.  A request that is refused changes nothing
and reports nothing.
-/

namespace MemoryArbiter

theorem Reason.structural_cases (r : Reason) : r.structural = false ∨ r = .createProcess ∨
    r = .processReady ∨ r = .processTerminated ∨ r = .osAccountChanged := by
  cases r <;> simp [Reason.structural]

theorem Reason.structural_of_isBoost {r : Reason} (h : r.isBoost = true) :
    r.structural = false := by
  cases r <;> simp_all [isBoost, structural]

namespace Engine

/-- The engine after one request, and what it did or why it refused. -/
def step (e : Engine) : Request → Outcome
  | .event ev => e.update ev
  | .switchTo account => e.switchTo account
  | .expireBoost pid token => e.expireBoost pid token
  | .noteKilled uid => ((e.noteKilled uid).1, .ok {})
  | .retain live => ((e.retain live).1, .ok (e.retain live).2)

def Accepts (e : Engine) (r : Request) : Prop := ∃ report, (e.step r).2 = .ok report

/-- What the engine did on `r`; nothing if it refused. -/
def reportOf (e : Engine) (r : Request) : StepReport :=
  match (e.step r).2 with
  | .ok report => report
  | .error _ => {}

def history (e : Engine) : List Request → List StepReport
  | [] => []
  | r :: rs => e.reportOf r :: (e.after r).history rs

variable {e : Engine} {r : Request}

theorem step_fst (e : Engine) (r : Request) : (e.step r).1 = e.after r := by
  cases r <;> rfl

theorem reportOf_of_ok {report : StepReport} (h : (e.step r).2 = .ok report) :
    e.reportOf r = report := by
  unfold reportOf
  rw [h]

theorem reportOf_of_refused (h : ¬ e.Accepts r) : e.reportOf r = {} := by
  unfold reportOf
  cases hr : (e.step r).2 with
  | ok report => exact absurd ⟨report, hr⟩ h
  | error _ => rfl

/-! ### Which step an event takes -/

theorem update_of_create {ev : Event} (hr : ev.reason = .createProcess) :
    e.update ev = e.track ev := by
  unfold update
  rw [hr]

theorem update_of_terminate {ev : Event} (hr : ev.reason = .processTerminated) :
    e.update ev = e.untrack ev := by
  unfold update
  rw [hr]

theorem update_of_switch {ev : Event} (hr : ev.reason = .osAccountChanged) :
    e.update ev = e.switchTo (accountOf ev.targetUid) := by
  unfold update
  rw [hr]

theorem update_of_ready {ev : Event} (hr : ev.reason = .processReady) :
    e.update ev = e.noteReady ev := by
  unfold update
  rw [hr]

theorem update_of_change {ev : Event} (hr : ev.reason.structural = false) :
    e.update ev = e.changeProcess ev := by
  unfold update
  split
  · next h => simp [h, Reason.structural] at hr
  · next h => simp [h, Reason.structural] at hr
  · next h => simp [h, Reason.structural] at hr
  · next h => simp [h, Reason.structural] at hr
  · rfl

theorem track_of_tracks {ev : Event} (h : e.Tracks ev.targetUid ev.pid) :
    e.track ev = (e, .ok {}) := by
  obtain ⟨p, hp, hu⟩ := h
  unfold track
  simp only [hp, if_pos hu]

/-- A pid that is not tracked needs no taking out, but that does no harm either. -/
theorem track_of_not_tracks {ev : Event} (h : ¬ e.Tracks ev.targetUid ev.pid) : e.track ev =
    conclude ((e.dropProcess ev.pid {}).1.addProcess ev (e.dropProcess ev.pid {}).2) := by
  unfold track
  simp only [takeIn_eq]
  cases hp : e.processes.get? ev.pid with
  | none =>
    simp only [dropProcess_of_none hp]
  | some p =>
    have hu : p.uid ≠ ev.targetUid := fun hu => h ⟨p, hp, hu⟩
    simp only [if_neg hu]

/-! ### Refusals -/

theorem not_accepts_iff : ¬ e.Accepts r ↔ ∃ x, (e.step r).2 = .error x := by
  unfold Accepts
  cases (e.step r).2 <;> simp

theorem track_ok (e : Engine) (ev : Event) : ∃ report, (e.track ev).2 = .ok report := by
  by_cases htr : e.Tracks ev.targetUid ev.pid
  · rw [track_of_tracks htr]
    exact ⟨_, rfl⟩
  · rw [track_of_not_tracks htr]
    exact ⟨_, rfl⟩

theorem untrack_refused {ev : Event} {x : Rejection} (h : (e.untrack ev).2 = .error x) :
    (e.untrack ev).1 = e := by
  unfold untrack at h ⊢
  split
  · next hp =>
    rw [if_pos hp] at h
    cases h
  · rfl

theorem switchTo_refused {account : Int} {x : Rejection} (h : (e.switchTo account).2 = .error x) :
    (e.switchTo account).1 = e := by
  by_cases hc : e.current = some account
  · exact switchTo_of_current hc
  · unfold switchTo at h
    rw [if_neg hc] at h
    cases h

theorem noteReady_fst (e : Engine) (ev : Event) : (e.noteReady ev).1 = e := by
  unfold noteReady
  split <;> rfl

theorem refusal?_eq_none {uid pid : Int} (h : e.refusal? uid pid = none) :
    ∃ b, e.bundles.get? uid = some b ∧ pid ∈ b.pids ∧ b.pinned = false := by
  unfold refusal? at h
  cases hb : e.bundles.get? uid with
  | none => simp [hb] at h
  | some b =>
    simp only [hb] at h
    by_cases hpid : pid ∈ b.pids
    · by_cases hpin : b.pinned = true
      · simp [hpid, hpin] at h
      · exact ⟨b, rfl, hpid, Bool.eq_false_iff.mpr hpin⟩
    · simp [hpid] at h

theorem Sound.tracks_of_refusal? (h : e.Sound) {uid pid : Int} (hr : e.refusal? uid pid = none) :
    e.Tracks uid pid := by
  obtain ⟨b, hb, hpid, -⟩ := refusal?_eq_none hr
  exact (((h.housed uid).bundle b hb).2.2.2 pid).mp hpid

/-- A bundle lists no process that is not tracked, so that only `Engine.refusal?` refuses a change,
and no token is lost. -/
theorem Sound.changeProcess_error_iff (h : e.Sound) {ev : Event} {x : Rejection} :
    (e.changeProcess ev).2 = .error x ↔ e.refusal? ev.targetUid ev.pid = some x := by
  unfold Engine.changeProcess
  cases hr : e.refusal? ev.targetUid ev.pid with
  | some r => simp
  | none =>
    obtain ⟨p, hp, -⟩ := h.tracks_of_refusal? hr
    simp [hp, conclude]

theorem Sound.changeProcess_refused (h : e.Sound) {ev : Event} {x : Rejection}
    (hx : (e.changeProcess ev).2 = .error x) : (e.changeProcess ev).1 = e := by
  rw [h.changeProcess_error_iff] at hx
  unfold Engine.changeProcess
  rw [hx]

theorem Sound.update_refused (h : e.Sound) {ev : Event} {x : Rejection}
    (hx : (e.update ev).2 = .error x) : (e.update ev).1 = e := by
  unfold Engine.update at hx ⊢
  split at hx
  · obtain ⟨report, hok⟩ := e.track_ok ev
    exact nomatch hok.symm.trans hx
  · exact untrack_refused hx
  · exact switchTo_refused hx
  · exact noteReady_fst e ev
  · exact h.changeProcess_refused hx

theorem expireBoost_refused {pid : Int} {token : Nat} {x : Rejection}
    (h : (e.expireBoost pid token).2 = .error x) : (e.expireBoost pid token).1 = e := by
  unfold expireBoost at h ⊢
  cases hp : e.processes.get? pid with
  | none => rfl
  | some p =>
    simp only [hp] at h ⊢
    split at h
    · rfl
    · cases h

theorem Sound.after_of_refused (h : e.Sound) (hno : ¬ e.Accepts r) : e.after r = e := by
  obtain ⟨x, hx⟩ := not_accepts_iff.mp hno
  cases r with
  | event ev => exact h.update_refused hx
  | switchTo account => exact switchTo_refused hx
  | expireBoost pid token => exact expireBoost_refused hx
  | noteKilled uid => cases hx
  | retain live => cases hx

/-! ### Runs in parts -/

theorem run_append (settings : Settings) (rs ss : List Request) :
    run settings (rs ++ ss) = ss.foldl after (run settings rs) :=
  List.foldl_append

theorem run_concat (settings : Settings) (rs : List Request) (r : Request) :
    run settings (rs ++ [r]) = (run settings rs).after r :=
  run_append settings rs [r]

end Engine

end MemoryArbiter
