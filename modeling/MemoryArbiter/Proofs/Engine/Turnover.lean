import MemoryArbiter.Proofs.Engine.Boosts

/-! # Which requests end a boost

A request ends a boost if it supersedes it, or if it is the request of its timer and is accepted.
One request either takes some boosts off or puts up a single new one, under a token that is one more
than the last, and the timers are told just that.
-/

namespace MemoryArbiter

namespace Engine

variable {e e' : Engine} {uid pid q : Int} {p : TrackedProcess} {ev : Event} {r : Request}

/-- A request that the engine accepts and that takes the process `pid` away, or changes it in any way
but by the timer of its boost. -/
def Supersedes (e : Engine) (pid : Int) : Request → Prop
  | .event ev => ev.pid = pid ∧ e.Accepts (.event ev) ∧
      (ev.reason.structural = false ∨ ev.reason = .processTerminated ∨
        ev.reason = .createProcess ∧ ¬ e.Tracks ev.targetUid pid)
  | .retain live => pid ∉ live
  | _ => False

def Ends (e : Engine) (pid : Int) (r : Request) : Prop :=
  e.Supersedes pid r ∨ ∃ token, r = .expireBoost pid token ∧ e.Accepts r

theorem Ends.accepts (h : e.Ends pid r) : e.Accepts r := by
  rcases h with h | ⟨token, rfl, h⟩
  · cases r with
    | event ev => exact h.2.1
    | retain live => exact ⟨_, rfl⟩
    | _ => cases h
  · exact h

theorem ends_event_iff : e.Ends pid (.event ev) ↔ e.Supersedes pid (.event ev) :=
  ⟨fun h => h.resolve_right (fun ⟨_, hr, _⟩ => nomatch hr), Or.inl⟩

/-- The timer that asks for `r` has run out if `r` is accepted. -/
def spent (e : Engine) : Request → List Effect
  | .expireBoost pid token =>
    match (e.expireBoost pid token).2 with
    | .ok _ => [.cancelTimer pid]
    | .error _ => []
  | _ => []

/-- All that becomes of the timers with `r`. -/
def timerWork (e : Engine) (r : Request) : List Effect := e.spent r ++ (e.reportOf r).timers

inductive Turnover (e e' : Engine) (r : Request) : List Effect → Prop
  | freed (gone : List Int) (frees : e.Frees e' gone)
      (ends : ∀ pid, e.boost? pid ≠ none → (e.Ends pid r ↔ pid ∈ gone)) :
      Turnover e e' r (e.cancels gone)
  | armed (ev : Event) (asked : r = .event ev) (pid uid : Int) (reason : Reason)
      (isBoost : reason.isBoost = true)
      (period : e.settings.gracePeriod ≠ 0)
      (kept : ∀ q, q ≠ pid → e'.lease? q = e.lease? q)
      (lease : e'.lease? pid = some ⟨uid, some ⟨e.lastToken + 1, reason⟩⟩)
      (lastToken : e'.lastToken = e.lastToken + 1)
      (ends : ∀ q, e.Ends q r ↔ q = pid) :
      Turnover e e' r
        (e.cancels [pid] ++ [.armTimer pid (e.lastToken + 1) e.settings.gracePeriod])

/-! ### Nothing ends -/

theorem turnover_idle (frees : e.Frees e' []) (hwork : e.timerWork r = [])
    (hno : ∀ pid, e.boost? pid ≠ none → ¬ e.Ends pid r) : Turnover e e' r (e.timerWork r) := by
  rw [hwork]
  exact .freed [] frees fun pid hp => ⟨fun h => absurd h (hno pid hp), (fun h => nomatch h)⟩

theorem timerWork_of_refused (h : ¬ e.Accepts r) : e.timerWork r = [] := by
  unfold timerWork
  rw [reportOf_of_refused h]
  cases r with
  | expireBoost pid token =>
    obtain ⟨x, hx⟩ := not_accepts_iff.mp h
    have hx' : (e.expireBoost pid token).2 = .error x := hx
    simp only [spent, hx']
    rfl
  | _ => rfl

theorem Sound.turnover_refused (h : e.Sound) (hno : ¬ e.Accepts r) :
    Turnover e (e.after r) r (e.timerWork r) := by
  rw [h.after_of_refused hno]
  exact turnover_idle (Frees.refl e) (timerWork_of_refused hno) fun _ _ hends => hno hends.accepts

theorem timerWork_of_ok {report : StepReport} (hok : (e.step r).2 = .ok report) :
    e.timerWork r = e.spent r ++ report.timers := by
  unfold timerWork
  rw [reportOf_of_ok hok]

theorem switchTo_timers {account : Int} {report : StepReport}
    (hok : (e.switchTo account).2 = .ok report) : report.timers = [] := by
  by_cases hc : e.current = some account
  · unfold switchTo at hok
    rw [if_pos hc] at hok
    cases hok
  · rw [switchTo_of_ne hc] at hok
    rw [← Except.ok.inj hok, report_timers (foldl_record_timersOnly _ timersOnly_start _),
      foldl_record_effects]

theorem Sound.turnover_switch (h : e.Sound) {account : Int} (hstep : e.step r = e.switchTo account)
    (hspent : e.spent r = []) (hno : ∀ pid, ¬ e.Ends pid r) :
    Turnover e (e.after r) r (e.timerWork r) := by
  refine turnover_idle ?_ ?_ fun pid _ => hno pid
  · rw [← step_fst, hstep]
    exact h.frees_switchTo account
  · by_cases hacc : e.Accepts r
    · obtain ⟨report, hok⟩ := hacc
      rw [timerWork_of_ok hok, hspent, switchTo_timers (hstep ▸ hok)]
      rfl
    · exact timerWork_of_refused hacc

/-! ### Processes come and go -/

theorem Sound.turnover_track (h : e.Sound) (hr : ev.reason = .createProcess) :
    Turnover e (e.after (.event ev)) (.event ev) (e.timerWork (.event ev)) := by
  have hstep : e.step (.event ev) = e.track ev := update_of_create hr
  have hacc : e.Accepts (.event ev) := by
    unfold Accepts
    rw [hstep]
    exact e.track_ok ev
  have hends : ∀ pid, e.Ends pid (.event ev) ↔ ev.pid = pid ∧ ¬ e.Tracks ev.targetUid pid := by
    intro pid
    rw [ends_event_iff]
    simp [Supersedes, hacc, hr, Reason.structural]
  rw [← step_fst, hstep]
  by_cases htr : e.Tracks ev.targetUid ev.pid
  · rw [track_of_tracks htr] at hstep ⊢
    refine turnover_idle (Frees.refl e) (timerWork_of_ok (congrArg Prod.snd hstep)) ?_
    intro pid _ hpid
    obtain ⟨rfl, hno⟩ := (hends pid).mp hpid
    exact hno htr
  · rw [track_of_not_tracks htr] at hstep ⊢
    have hwork : e.timerWork (.event ev) = e.cancels [ev.pid] := by
      rw [timerWork_of_ok (congrArg Prod.snd hstep),
        report_timers (addProcess_timersOnly (dropProcess_timersOnly timersOnly_start _ _)),
        addProcess_effects, dropProcess_effects]
      rfl
    have hfrees := (h.frees_dropProcess ev.pid {}).trans
      (frees_addProcess (e.dropProcess ev.pid {}).1 ev (e.dropProcess ev.pid {}).2)
    rw [hwork]
    refine .freed [ev.pid] (hfrees.of_mem (by simp)) ?_
    intro pid _
    rw [hends, List.mem_singleton]
    constructor
    · exact fun h => h.1.symm
    · rintro rfl
      exact ⟨rfl, htr⟩

theorem Sound.turnover_untrack (h : e.Sound) (hr : ev.reason = .processTerminated)
    (hacc : e.Accepts (.event ev)) :
    Turnover e (e.after (.event ev)) (.event ev) (e.timerWork (.event ev)) := by
  have hstep : e.step (.event ev) = e.untrack ev := by
    exact update_of_terminate hr
  have hends : ∀ pid, e.Ends pid (.event ev) ↔ ev.pid = pid := by
    intro pid
    rw [ends_event_iff]
    simp [Supersedes, hacc, hr]
  obtain ⟨report, hok⟩ := hacc
  rw [timerWork_of_ok hok, ← step_fst, hstep]
  rw [hstep] at hok
  unfold Engine.untrack at hok ⊢
  split at hok
  · next hp =>
    rw [if_pos hp]
    simp only [conclude] at hok ⊢
    rw [← Except.ok.inj hok, report_timers (dropProcess_timersOnly timersOnly_start e ev.pid),
      dropProcess_effects]
    refine .freed [ev.pid] (h.frees_dropProcess ev.pid {}) ?_
    intro pid _
    rw [hends, List.mem_singleton]
    exact eq_comm
  · cases hok

theorem Sound.turnover_retain (h : e.Sound) (live : List Int) :
    Turnover e (e.after (.retain live)) (.retain live) (e.timerWork (.retain live)) := by
  have hnd : (e.processes.keys.filter fun pid => !live.contains pid).Nodup :=
    e.processes.keys_nodup.filter _
  have hwork : e.timerWork (.retain live) =
      e.cancels (e.processes.keys.filter fun pid => !live.contains pid) := by
    have hok : (e.step (.retain live)).2 = .ok (e.retain live).2 := rfl
    rw [timerWork_of_ok hok]
    simp only [Engine.retain]
    rw [report_timers (foldl_dropProcess_timersOnly _ timersOnly_start),
      h.foldl_dropProcess_effects _ hnd (s := (e, {}))]
    rfl
  rw [hwork]
  refine .freed _ (h.frees_foldl_dropProcess _ (s := (e, {}))) ?_
  intro pid hpid
  have htracked : pid ∈ e.processes.keys := by
    rw [Table.mem_keys]
    cases hp : e.processes.get? pid with
    | some p => rfl
    | none => exact absurd (boost?_of_none hp) hpid
  have hends : e.Ends pid (.retain live) ↔ pid ∉ live :=
    ⟨fun h => h.resolve_right (fun ⟨_, hr, _⟩ => nomatch hr), Or.inl⟩
  simp [hends, htracked]

/-! ### Changes -/

theorem Sound.changeProcess_ok (h : e.Sound) {report : StepReport}
    (hok : (e.changeProcess ev).2 = .ok report) :
    ∃ p, e.processes.get? ev.pid = some p ∧ p.pid = ev.pid ∧ p.uid = ev.targetUid ∧
      (e.changeProcess ev).1 =
        { e with lastToken := (e.tokenFor ev.reason).getD e.lastToken }.putProcess
          { p.respond ev.reason (e.bindingFor ev) with
            boost := (e.tokenFor ev.reason).map fun n => ⟨n, ev.reason⟩ } ∧
      report.timers = e.timerEffects ev.pid p.boost (e.tokenFor ev.reason) := by
  unfold Engine.changeProcess at hok ⊢
  cases hr : e.refusal? ev.targetUid ev.pid with
  | some x =>
    simp only [hr] at hok
    cases hok
  | none =>
    cases hp : e.processes.get? ev.pid with
    | none =>
      simp only [hr, hp] at hok
      cases hok
    | some p =>
      obtain ⟨q, hq, hu⟩ := h.tracks_of_refusal? hr
      obtain rfl := Option.some.inj (hq.symm.trans hp)
      simp only [hr, hp, conclude] at hok ⊢
      refine ⟨q, rfl, h.pid_eq hq, hu, rfl, ?_⟩
      rw [← Except.ok.inj hok,
        report_timers (record_timersOnly (timerEffects_timersOnly _ _ _ _) _ _), record_effects]

theorem timerEffects_eq (hp : e.processes.get? pid = some p) (token : Option Nat) :
    e.timerEffects pid p.boost token = e.cancels [pid] ++
      token.toList.map fun n => .armTimer pid n e.settings.gracePeriod := by
  have hboost := boost?_of_get? hp
  unfold timerEffects
  cases hb : p.boost with
  | none => cases token <;> simp [cancels, hboost, hb]
  | some b => cases token <;> simp [cancels, hboost, hb]

theorem Sound.turnover_change (h : e.Sound) (hstep : e.step (.event ev) = e.changeProcess ev)
    (hr : ev.reason.structural = false) (hacc : e.Accepts (.event ev)) :
    Turnover e (e.after (.event ev)) (.event ev) (e.timerWork (.event ev)) := by
  have hends : ∀ pid, e.Ends pid (.event ev) ↔ pid = ev.pid := by
    intro pid
    rw [ends_event_iff]
    simp [Supersedes, hacc, hr, eq_comm]
  obtain ⟨report, hok⟩ := hacc
  rw [timerWork_of_ok hok, ← step_fst, hstep]
  rw [hstep] at hok
  obtain ⟨p, hp, hpid, huid, hafter, htimers⟩ := h.changeProcess_ok hok
  obtain ⟨hrp, hru⟩ := p.respond_ids ev.reason (e.bindingFor ev)
  rw [hafter, htimers, timerEffects_eq hp]
  cases htok : e.tokenFor ev.reason with
  | none =>
    have hfrees := frees_putProcess { e with lastToken := e.lastToken }
      (p := { p.respond ev.reason (e.bindingFor ev) with boost := none }) rfl
    rw [hrp.trans hpid] at hfrees
    have heff : e.spent (.event ev) ++ (e.cancels [ev.pid] ++
        (none : Option Nat).toList.map fun n => .armTimer ev.pid n e.settings.gracePeriod) =
          e.cancels [ev.pid] := by
      simp [spent]
    rw [heff]
    refine .freed [ev.pid] hfrees ?_
    intro q _
    rw [hends, List.mem_singleton]
  | some n =>
    have htok' := htok
    unfold tokenFor at htok'
    split at htok'
    · next hboost =>
      obtain rfl := Option.some.inj htok'
      rw [Bool.and_eq_true] at hboost
      refine .armed ev rfl ev.pid ev.targetUid ev.reason hboost.1 (by simpa using hboost.2) ?_ ?_ ?_ hends
      · intro q hq
        refine (putProcess_lease? _ _ _).trans (if_neg ?_)
        exact fun he => hq ((he.symm.trans (hrp.trans hpid)))
      · refine (putProcess_lease? _ _ _).trans ((if_pos (hrp.trans hpid)).trans ?_)
        exact congrArg (fun u => some (Lease.mk u _)) (hru.trans huid)
      · exact putProcess_lastToken _ _
    · cases htok'

theorem expireBoost_ok {token : Nat} {report : StepReport}
    (hok : (e.expireBoost pid token).2 = .ok report) :
    ∃ p b undo, e.processes.get? pid = some p ∧ p.boost = some b ∧ b.token = token ∧
      b.reason.undo? = some undo ∧
      (e.expireBoost pid token).1 = e.putProcess ({ p with boost := none }.respond undo none) ∧
      report.timers = [] := by
  unfold expireBoost at hok ⊢
  cases hp : e.processes.get? pid with
  | none =>
    simp only [hp] at hok
    cases hok
  | some p =>
    simp only [hp] at hok
    cases hundo : p.boost.filter (fun b => b.token == token) |>.bind fun b => b.reason.undo? with
    | none =>
      simp only [hundo] at hok
      cases hok
    | some undo =>
      simp only [hundo, conclude] at hok ⊢
      obtain ⟨b, hb, hb'⟩ := Option.bind_eq_some_iff.mp hundo
      obtain ⟨hb, htok⟩ := Option.filter_eq_some_iff.mp hb
      refine ⟨p, b, undo, rfl, hb, by simpa using htok, hb', rfl, ?_⟩
      rw [← Except.ok.inj hok, report_timers (record_timersOnly timersOnly_start _ _),
        record_effects]

theorem Sound.turnover_expireBoost (h : e.Sound) {token : Nat}
    (hacc : e.Accepts (.expireBoost pid token)) :
    Turnover e (e.after (.expireBoost pid token)) (.expireBoost pid token)
      (e.timerWork (.expireBoost pid token)) := by
  have hends : ∀ q, e.Ends q (.expireBoost pid token) ↔ q = pid := by
    intro q
    constructor
    · rintro (h | ⟨_, hr, _⟩)
      · cases h
      · cases hr
        rfl
    · rintro rfl
      exact Or.inr ⟨token, rfl, hacc⟩
  obtain ⟨report, hok⟩ := hacc
  have hspent : e.spent (.expireBoost pid token) = [.cancelTimer pid] := by
    have hok' : (e.expireBoost pid token).2 = .ok report := hok
    simp only [spent, hok']
  obtain ⟨p, b, undo, hp, hb, -, -, hafter, htimers⟩ := expireBoost_ok hok
  have hboost : e.boost? pid = some b := (boost?_of_get? hp).trans hb
  have hpid : ({ p with boost := none }.respond undo none).pid = pid :=
    ({ p with boost := none }.respond_ids undo none).1.trans (show p.pid = pid from h.pid_eq hp)
  have hfrees := frees_putProcess e (p := { p with boost := none }.respond undo none) (by simp)
  rw [hpid] at hfrees
  rw [timerWork_of_ok hok, hspent, htimers, List.append_nil, ← cancels_of_some hboost]
  have hafter' : e.after (.expireBoost pid token) = _ := hafter
  rw [← hafter'] at hfrees
  refine .freed [pid] hfrees ?_
  intro q _
  rw [hends, List.mem_singleton]

/-! ### Every request -/

theorem noteReady_timers {report : StepReport} (hok : (e.noteReady ev).2 = .ok report) :
    report.timers = [] := by
  unfold noteReady at hok
  split at hok
  · cases hok
  · cases hok
    rfl

theorem Sound.turnover (h : e.Sound) (r : Request) : Turnover e (e.after r) r (e.timerWork r) := by
  by_cases hacc : e.Accepts r
  · cases r with
    | event ev =>
      rcases ev.reason.structural_cases with hr | hr | hr | hr | hr
      · exact h.turnover_change (update_of_change hr) hr hacc
      · exact h.turnover_track hr
      · have hstep : e.step (.event ev) = e.noteReady ev := by
          exact update_of_ready hr
        refine turnover_idle ?_ ?_ fun pid _ hends => ?_
        · rw [← step_fst, hstep, noteReady_fst]
          exact Frees.refl e
        · obtain ⟨report, hok⟩ := hacc
          rw [timerWork_of_ok hok, noteReady_timers (hstep ▸ hok)]
          rfl
        · have hsup := ends_event_iff.mp hends
          simp [Supersedes, hr, Reason.structural] at hsup
      · exact h.turnover_untrack hr hacc
      · refine h.turnover_switch (update_of_switch hr) rfl fun pid hends => ?_
        have hsup := ends_event_iff.mp hends
        simp [Supersedes, hr, Reason.structural] at hsup
    | switchTo account =>
      refine h.turnover_switch rfl rfl fun pid hends => ?_
      rcases hends with hends | ⟨_, hr, -⟩
      · cases hends
      · cases hr
    | expireBoost pid token => exact h.turnover_expireBoost hacc
    | noteKilled uid =>
      refine turnover_idle (frees_noteKilled e uid) rfl fun pid _ hends => ?_
      rcases hends with hends | ⟨_, hr, -⟩
      · cases hends
      · cases hr
    | retain live => exact h.turnover_retain live
  · exact h.turnover_refused hacc

end Engine

end MemoryArbiter
