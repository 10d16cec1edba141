import MemoryArbiter.Proofs.Engine.Notes

/-! # The journal behind a report

Every request that a sound engine answers is reported from a journal that is true of the step from
the engine before to the one after; a request that is refused leaves nothing to write down.
-/

namespace MemoryArbiter

namespace Engine

variable {e e' : Engine} {uid pid : Int}

/-- The journal that a step from `e` to `e'` has kept when it reports. -/
structure Reported (e e' : Engine) (report : StepReport) (j : Journal) : Prop where
  noted : Noted e e' j
  timersOnly : j.TimersOnly
  report_eq : report = e'.report j

theorem reported_idle (e : Engine) : e.Reported e {} {} := ⟨noted_start e [], timersOnly_start, rfl⟩

theorem timerEffects_timersOnly (e : Engine) (pid : Int) (old : Option Boost) (token : Option Nat) :
    ({ effects := e.timerEffects pid old token } : Journal).TimersOnly := by
  intro x hx
  unfold timerEffects at hx
  cases old <;> cases token <;> simp at hx
  · rw [hx]
    rfl
  · rw [hx]
    rfl
  · rcases hx with rfl | rfl <;> rfl

theorem Sound.reported_track (h : e.Sound) (ev : Event) {report : StepReport}
    (hok : (e.track ev).2 = .ok report) : ∃ j, e.Reported (e.track ev).1 report j := by
  by_cases htr : e.Tracks ev.targetUid ev.pid
  · rw [track_of_tracks htr] at hok ⊢
    cases hok
    exact ⟨{}, reported_idle e⟩
  · rw [track_of_not_tracks htr] at hok ⊢
    exact ⟨_, ((noted_start e []).dropProcess h ev.pid).addProcess
      (h.dropProcess_get?_self ev.pid {}) (dropProcess_former htr),
      addProcess_timersOnly (dropProcess_timersOnly timersOnly_start e ev.pid),
      (Except.ok.inj hok).symm⟩

theorem Sound.reported_untrack (h : e.Sound) (ev : Event) {report : StepReport}
    (hok : (e.untrack ev).2 = .ok report) : ∃ j, e.Reported (e.untrack ev).1 report j := by
  unfold Engine.untrack at hok ⊢
  split at hok
  · next hp =>
    rw [if_pos hp]
    exact ⟨_, (noted_start e []).dropProcess h ev.pid,
      dropProcess_timersOnly timersOnly_start e ev.pid, (Except.ok.inj hok).symm⟩
  · cases hok

theorem Sound.reported_switchTo (h : e.Sound) {account : Int} {report : StepReport}
    (hok : (e.switchTo account).2 = .ok report) : ∃ j, e.Reported (e.switchTo account).1 report j := by
  by_cases hc : e.current = some account
  · unfold Engine.switchTo at hok
    rw [if_pos hc] at hok
    cases hok
  · rw [switchTo_of_ne hc] at hok ⊢
    have hstart : Noted e (e.fronted account) {} := fun u =>
      (noted_start e [] u).frame ⟨fun _ _ _ => Iff.rfl, rfl, rfl⟩
    refine ⟨_, ?_, foldl_record_timersOnly _ timersOnly_start _, (Except.ok.inj hok).symm⟩
    exact (hstart.foldl_record _).foldl_updateMembers _ (h.toArranged.fronted hc)
      fun u hu hb => foldl_record_isSome hu hb

theorem Sound.reported_changeProcess (h : e.Sound) (ev : Event) {report : StepReport}
    (hok : (e.changeProcess ev).2 = .ok report) :
    ∃ j, e.Reported (e.changeProcess ev).1 report j := by
  unfold Engine.changeProcess at hok ⊢
  cases hr : e.refusal? ev.targetUid ev.pid with
  | some r =>
    simp only [hr] at hok
    cases hok
  | none =>
    cases hp : e.processes.get? ev.pid with
    | none =>
      simp only [hr, hp] at hok
      cases hok
    | some p =>
      simp only [hr, hp] at hok ⊢
      obtain ⟨q, hq, hu⟩ := h.tracks_of_refusal? hr
      rw [Option.some.inj (hq.symm.trans hp)] at hu
      have hids := p.respond_ids ev.reason (e.bindingFor ev)
      have hstart : ∀ token effects, Noted e { e with lastToken := token } { effects := effects } :=
        fun _ effects u => (noted_start e effects u).frame ⟨fun _ _ _ => Iff.rfl, rfl, rfl⟩
      have hput := (h.withToken ((e.tokenFor ev.reason).getD e.lastToken)).noted_putProcess
        (hstart _ (e.timerEffects ev.pid p.boost (e.tokenFor ev.reason)))
        (p := { p.respond ev.reason (e.bindingFor ev) with
          boost := (e.tokenFor ev.reason).map fun n => ⟨n, ev.reason⟩ }) hp hids.1 hids.2
      rw [hu] at hput
      exact ⟨_, hput, record_timersOnly (timerEffects_timersOnly _ _ _ _) _ _,
        (Except.ok.inj hok).symm⟩

theorem Sound.reported_expireBoost (h : e.Sound) {pid : Int} {token : Nat} {report : StepReport}
    (hok : (e.expireBoost pid token).2 = .ok report) :
    ∃ j, e.Reported (e.expireBoost pid token).1 report j := by
  unfold Engine.expireBoost at hok ⊢
  cases hp : e.processes.get? pid with
  | none =>
    simp only [hp] at hok
    cases hok
  | some p =>
    simp only [hp] at hok
    split at hok
    · cases hok
    · next reason hreason =>
      have hids := { p with boost := none }.respond_ids reason none
      simp only [hreason]
      exact ⟨_, h.noted_putProcess (noted_start e []) hp hids.1 hids.2,
        record_timersOnly timersOnly_start _ _, (Except.ok.inj hok).symm⟩

theorem Sound.reported_update (h : e.Sound) (ev : Event) {report : StepReport}
    (hok : (e.update ev).2 = .ok report) : ∃ j, e.Reported (e.update ev).1 report j := by
  unfold Engine.update at hok ⊢
  split at hok
  · exact h.reported_track ev hok
  · exact h.reported_untrack ev hok
  · exact h.reported_switchTo hok
  · refine ⟨{}, ?_⟩
    rw [noteReady_fst]
    unfold Engine.noteReady at hok
    split at hok
    · cases hok
    · cases hok
      exact reported_idle e
  · exact h.reported_changeProcess ev hok

/-- Whatever is asked of a sound engine, the report is read off a journal that is true. -/
theorem Sound.reported (h : e.Sound) (r : Request) :
    ∃ j, e.Reported (e.after r) (e.reportOf r) j := by
  by_cases hacc : e.Accepts r
  · obtain ⟨report, hok⟩ := hacc
    rw [reportOf_of_ok hok]
    cases r with
    | event ev => exact h.reported_update ev hok
    | switchTo account => exact h.reported_switchTo hok
    | expireBoost pid token => exact h.reported_expireBoost hok
    | noteKilled uid =>
      cases hok
      refine ⟨{}, fun u => ⟨fun _ => ⟨noteKilled_standing? e uid u, ?_⟩, (fun _ hf => nomatch hf), ?_⟩,
        timersOnly_start, rfl⟩
      · rintro pid ⟨p, hp, hu⟩
        exact ⟨p, by rw [← noteKilled_processes e uid]; exact hp, hu⟩
      · rintro pid ⟨p, hp, hu⟩
        exact Or.inl ⟨p, by rw [← noteKilled_processes e uid]; exact hp, hu⟩
    | retain live =>
      cases hok
      exact ⟨_, (noted_start e []).foldl_dropProcess _ (s := (e, {})) h,
        foldl_dropProcess_timersOnly _ (s := (e, {})) timersOnly_start, rfl⟩
  · rw [h.after_of_refused hacc, reportOf_of_refused hacc]
    exact ⟨{}, reported_idle e⟩

end Engine

end MemoryArbiter
