import MemoryArbiter.Proofs.Engine.Tokens
import MemoryArbiter.Proofs.PriorityTask.Requests

/-! # Timers and boosts

The task keeps a timer for exactly the boosts that wait, each under the token of its boost, whatever
requests come in and in whichever order.  In particular a request of a timer that comes late, after
its boost has been replaced or its process has gone, touches nothing.
-/

namespace MemoryArbiter

namespace Engine

variable {e e' : Engine} {r : Request} {work : List Effect} {timers : Table Int ArmedTimer} {q : Int}
  {now : Nat}

/-- There is a timer for exactly those processes on which a boost waits, with the token of the
boost. -/
def TimedBy (e : Engine) (timers : Table Int ArmedTimer) : Prop :=
  ∀ pid, (timers.get? pid).map ArmedTimer.token = (e.boost? pid).map Boost.token

theorem TimedBy.get?_eq_none (h : e.TimedBy timers) (hq : e.boost? q = none) :
    timers.get? q = none := by
  have hboth := h q
  rw [hq] at hboth
  exact Option.map_eq_none_iff.mp hboth

theorem TimedBy.boost_of_timer (h : e.TimedBy timers) {timer : ArmedTimer}
    (hq : timers.get? q = some timer) : ∃ b, e.boost? q = some b ∧ b.token = timer.token := by
  have hboth := h q
  rw [hq] at hboth
  exact Option.map_eq_some_iff.mp hboth.symm

theorem TimedBy.timer_of_boost (h : e.TimedBy timers) {b : Boost} (hq : e.boost? q = some b) :
    ∃ timer, timers.get? q = some timer ∧ timer.token = b.token := by
  have hboth := h q
  rw [hq] at hboth
  exact Option.map_eq_some_iff.mp hboth

theorem foldl_cancelTimer_get? (now : Nat) (pids : List Int) (timers : Table Int ArmedTimer) (q : Int) :
    ((pids.map Effect.cancelTimer).foldl (Effect.setTimer now) timers).get? q =
      if q ∈ pids then none else timers.get? q := by
  induction pids generalizing timers with
  | nil => simp
  | cons pid pids ih =>
    rw [List.map_cons, List.foldl_cons, ih]
    have herase : (timers.erase pid).get? q = if pid = q then none else timers.get? q :=
      Table.get?_erase _ _ _
    simp only [Effect.setTimer, herase]
    by_cases hq : q = pid
    · simp [hq]
    · simp [hq, Ne.symm hq]

/-- The cancellations take out the timers of `pids`; one without a boost has no timer anyhow. -/
theorem TimedBy.cancels_get? (h : e.TimedBy timers) (now : Nat) (pids : List Int) (q : Int) :
    ((e.cancels pids).foldl (Effect.setTimer now) timers).get? q =
      if q ∈ pids then none else timers.get? q := by
  unfold cancels
  rw [foldl_cancelTimer_get?]
  by_cases hq : q ∈ pids
  · cases hb : e.boost? q with
    | none => simp [h.get?_eq_none hb]
    | some b => simp [hq, hb]
  · simp [hq]

theorem TimedBy.armed_get? (h : e.TimedBy timers) (now : Nat) (pid : Int) (token delay : Nat)
    (q : Int) :
    ((e.cancels [pid] ++ [Effect.armTimer pid token delay]).foldl (Effect.setTimer now) timers).get? q =
      if q = pid then some { token, due := now + delay } else timers.get? q := by
  rw [List.foldl_append]
  refine (Table.get?_insert _ _ _ _).trans ?_
  rw [h.cancels_get?]
  by_cases hq : q = pid
  · simp [hq]
  · simp [hq, Ne.symm hq]

theorem Turnover.timedBy (h : Turnover e e' r work) (ht : e.TimedBy timers) (now : Nat) :
    e'.TimedBy (work.foldl (Effect.setTimer now) timers) := by
  intro q
  cases h with
  | freed gone frees ends =>
    rw [ht.cancels_get?]
    by_cases hq : q ∈ gone
    · rw [if_pos hq, frees.lost q hq]
      rfl
    · rw [if_neg hq, boost?_congr (frees.kept q hq)]
      exact ht q
  | armed ev asked pid uid reason isBoost period kept lease lastToken ends =>
    rw [ht.armed_get?]
    by_cases hq : q = pid
    · rw [if_pos hq, hq]
      rw [boost?_of_lease? lease]
      rfl
    · rw [if_neg hq, boost?_congr (kept q hq)]
      exact ht q

/-- A timer that is there afterwards was there before, and its boost has not been ended, or an event
has just armed it. -/
theorem Turnover.timer_cases (h : Turnover e e' r work) (ht : e.TimedBy timers) {timer : ArmedTimer}
    (hq : (work.foldl (Effect.setTimer now) timers).get? q = some timer) :
    (timers.get? q = some timer ∧ ¬ e.Ends q r) ∨
      (timer.due = now + e.settings.gracePeriod ∧ timer.fired = false ∧
        e.settings.gracePeriod ≠ 0 ∧ (∃ ev, r = .event ev) ∧
        (q, timer.token) ∈ work.filterMap Effect.arming?) := by
  have hboosted : timers.get? q = some timer → e.boost? q ≠ none := by
    intro hget hnone
    exact nomatch (ht.get?_eq_none hnone).symm.trans hget
  cases h with
  | freed gone frees ends =>
    rw [ht.cancels_get?] at hq
    by_cases hg : q ∈ gone
    · rw [if_pos hg] at hq
      cases hq
    · rw [if_neg hg] at hq
      exact Or.inl ⟨hq, fun hends => hg ((ends q (hboosted hq)).mp hends)⟩
  | armed ev asked pid uid reason isBoost period kept lease lastToken ends =>
    rw [ht.armed_get?] at hq
    by_cases hg : q = pid
    · rw [if_pos hg] at hq
      obtain rfl := Option.some.inj hq
      refine Or.inr ⟨rfl, rfl, period, ⟨ev, asked⟩, ?_⟩
      simp [hg, cancels_arming?, Effect.arming?]
    · rw [if_neg hg] at hq
      exact Or.inl ⟨hq, fun hends => hg ((ends q).mp hends)⟩

end Engine

namespace PriorityTask

variable {κ : Type} [Kernel κ] {t : PriorityTask}

structure Matched (t : PriorityTask) : Prop where
  sound : t.engine.Sound
  tokened : t.engine.Tokened
  timed : t.engine.TimedBy t.timers

theorem matched_start (settings : Settings) : (start settings).Matched :=
  ⟨Engine.sound_new settings, Engine.tokened_new settings, fun _ => rfl⟩

theorem Follows.matched {now : Nat} {r : Request} {task : PriorityTask} {notices : List Notice}
    (h : t.Follows now r task notices) (hm : t.Matched) : task.Matched := by
  have hturn := hm.sound.turnover r
  refine ⟨?_, ?_, ?_⟩
  · rw [h.engine]
    exact hm.sound.after r
  · rw [h.engine]
    exact hturn.tokened hm.tokened
  · rw [h.engine, h.timers]
    exact hturn.timedBy hm.timed now

theorem Matched.attend (h : t.Matched) (c : Call κ) : (t.attend c).task.Matched := by
  unfold PriorityTask.attend
  cases c.request with
  | work r => exact (handle_follows h.sound c.now c.kernel r).matched h
  | rows => exact h
  | selfCheck => exact h

theorem Matched.afterCalls (calls : List (Call κ)) (h : t.Matched) :
    (t.afterCalls calls).Matched := by
  induction calls generalizing t with
  | nil => exact h
  | cons c calls ih => exact ih (h.attend c)

/-- The request of a timer whose boost does not wait any more changes nothing at all. -/
theorem timerFired_of_refused (sound : t.engine.Sound) {pid : Int} {token : Nat}
    (h : ¬ t.engine.Accepts (.expireBoost pid token)) (now : Nat) (kernel : κ) :
    (t.timerFired now kernel pid token).task = t := by
  obtain ⟨x, hx⟩ := Engine.not_accepts_iff.mp h
  unfold timerFired
  cases hs : t.engine.expireBoost pid token with
  | mk engine outcome =>
    cases outcome with
    | error _ =>
      have hafter : t.engine.after (.expireBoost pid token) = engine := congrArg Prod.fst hs
      show { t with engine := engine } = t
      rw [← hafter, sound.after_of_refused h]
    | ok report =>
      have hok : (t.engine.step (.expireBoost pid token)).2 = .ok report := congrArg Prod.snd hs
      exact nomatch hok.symm.trans hx

end PriorityTask

end MemoryArbiter
