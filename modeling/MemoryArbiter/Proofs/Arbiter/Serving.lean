import MemoryArbiter.Proofs.Killer.Course
import MemoryArbiter.Proofs.PriorityTask.Punctual

/-! # What the arbiter asks of its priority task by itself

Passes mark the bundles that they kill, and sweeps take out the processes that are gone.  Such
requests arm no timers and come at the time that it is.
-/

namespace MemoryArbiter

/-- Events and switches come from outside. -/
def Request.internal : Request → Bool
  | event _ | switchTo _ => false
  | expireBoost _ _ | noteKilled _ | retain _ => true

variable {κ : Type} [Kernel κ]

/-- Since the time `since`, when its trace was `trace` and its timers were `timers`, the task has
taken up nothing but internal requests. -/
structure Serving (κ : Type) [Kernel κ] (settings : Settings) (trace : Trace) (since : Nat)
    (timers : Table Int ArmedTimer) (now : Nat) (t : PriorityTask) : Prop where
  since_le : since ≤ now
  clocked : ∃ more : Trace, (∀ x ∈ more, x.2.internal = true ∧ since ≤ x.1 ∧ x.1 ≤ now) ∧
    PriorityTask.Clocked κ settings now t [] (trace ++ more)
  shrunk : ∀ pid timer, t.timers.get? pid = some timer → timers.get? pid = some timer

namespace Serving

variable {settings : Settings} {trace : Trace} {since now : Nat} {timers : Table Int ArmedTimer}
  {t : PriorityTask}

theorem start (h : PriorityTask.Clocked κ settings now t [] trace) :
    Serving κ settings trace now t.timers now t :=
  ⟨Nat.le_refl now, ⟨[], (fun _ hx => nomatch hx), by simpa using h⟩, fun _ _ ht => ht⟩

theorem onTime (h : Serving κ settings trace since timers now t) :
    ∃ trace, PriorityTask.OnTime settings now t [] trace := by
  obtain ⟨more, -, hclocked⟩ := h.clocked
  exact ⟨_, hclocked.onTime⟩

theorem unfired (h : Serving κ settings trace since timers now t) {pid : Int} {timer : ArmedTimer}
    (ht : t.timers.get? pid = some timer) : timer.fired = false := by
  obtain ⟨_, honTime⟩ := h.onTime
  cases hfired : timer.fired with
  | false => rfl
  | true => exact nomatch honTime.fired pid timer ht hfired -- the mail is empty

theorem push (h : Serving κ settings trace since timers now t) {t' : PriorityTask} {r : Request}
    (internal : r.internal = true)
    (next : ∀ trace, PriorityTask.Clocked κ settings now t [] trace →
      PriorityTask.Clocked κ settings now t' [] (trace ++ [(now, r)]))
    (shrunk : ∀ pid timer, t'.timers.get? pid = some timer → t.timers.get? pid = some timer) :
    Serving κ settings trace since timers now t' := by
  obtain ⟨more, hmore, hclocked⟩ := h.clocked
  refine ⟨h.since_le, ⟨more ++ [(now, r)], ?_, ?_⟩,
    fun pid timer ht => h.shrunk pid timer (shrunk pid timer ht)⟩
  · intro x hx
    rcases List.mem_append.mp hx with hx | hx
    · exact hmore x hx
    · rw [List.mem_singleton.mp hx]
      exact ⟨internal, h.since_le, Nat.le_refl now⟩
  · rw [← List.append_assoc]
    exact next _ hclocked

theorem take (h : Serving κ settings trace since timers now t) {r : Request}
    (internal : r.internal = true) (outside : ∀ pid token, r ≠ .expireBoost pid token) (kernel : κ) :
    Serving κ settings trace since timers now (t.handle now kernel (.work r)).task := by
  refine h.push internal (fun _ hclocked => hclocked.take r outside kernel) ?_
  intro pid timer ht
  obtain ⟨_, honTime⟩ := h.onTime
  rcases honTime.timer_cases r kernel ht with ⟨hold, -⟩ | ⟨-, -, -, ⟨ev, rfl⟩, -⟩
  · exact hold
  · cases internal

theorem wait (h : Serving κ settings trace since timers now t) {m : Nat} (le : now ≤ m)
    (still : ∀ pid timer, t.timers.get? pid = some timer → m ≤ timer.due) :
    Serving κ settings trace since timers m t := by
  obtain ⟨more, hmore, hclocked⟩ := h.clocked
  refine ⟨Nat.le_trans h.since_le le, ⟨more, ?_, ?_⟩, h.shrunk⟩
  · intro x hx
    obtain ⟨hint, hsince, hnow⟩ := hmore x hx
    exact ⟨hint, hsince, Nat.le_trans hnow le⟩
  · exact hclocked.wait le fun pid timer ht _ => still pid timer ht

/-- A timer fires when it is due, and its request is taken up at once: the timer is gone then, and
all others are as they were. -/
theorem ring (h : Serving κ settings trace since timers now t) {pid : Int} {timer : ArmedTimer}
    (there : t.timers.get? pid = some timer) (due : timer.due ≤ now) {fired : PriorityTask}
    (fires : t.fire? pid timer.token = some fired) (kernel : κ) :
    Serving κ settings trace since timers now (fired.timerFired now kernel pid timer.token).task ∧
      ∀ q other, (fired.timerFired now kernel pid timer.token).task.timers.get? q = some other →
        q ≠ pid ∧ t.timers.get? q = some other := by
  have hfired : ∀ trace, PriorityTask.Clocked κ settings now t [] trace →
      PriorityTask.Clocked κ settings now fired ([] ++ (pid, timer.token) :: []) trace :=
    fun _ hclocked => hclocked.fire there due fires
  obtain ⟨more, -, hclocked⟩ := h.clocked
  have hcases : ∀ q other,
      (fired.timerFired now kernel pid timer.token).task.timers.get? q = some other →
        q ≠ pid ∧ t.timers.get? q = some other := by
    intro q other hq
    have hold : fired.timers.get? q = some other := by
      rcases (hfired _ hclocked).onTime.timer_cases (.expireBoost pid timer.token) kernel hq with
        ⟨hold, -⟩ | ⟨-, -, -, ⟨ev, hr⟩, -⟩
      · exact hold
      · cases hr
    obtain ⟨timer', hget, -, -, rfl⟩ := PriorityTask.fire?_eq_some fires
    rw [Table.get?_insert] at hold
    by_cases hpid : pid = q
    · rw [if_pos hpid] at hold
      obtain rfl := Option.some.inj hold
      exact nomatch ((hfired _ hclocked).deliver kernel).onTime.fired q _ hq rfl
    · rw [if_neg hpid] at hold
      exact ⟨Ne.symm hpid, hold⟩
  refine ⟨h.push (r := .expireBoost pid timer.token) rfl ?_ fun q other hq => (hcases q other hq).2,
    hcases⟩
  exact fun trace hclocked => (hfired trace hclocked).deliver kernel

end Serving

namespace Arbiter

variable {settings : Settings} {a a' a'' : Arbiter κ}

/-! ### Passes and sweeps as they come -/

/-- `R` holds along everything that passes, samples and sweeps are made of. -/
structure Composed (R : Arbiter κ → Arbiter κ → Prop) : Prop where
  refl : ∀ a, R a a
  trans : ∀ {a a' a''}, R a a' → R a' a'' → R a a''
  queued : ∀ (a : Arbiter κ) (passes : Option PassQueue), R a { a with passes := passes }
  sampled : ∀ (a : Arbiter κ) (m : Monitor), R a { a with kernel := (m.sample a.kernel).2 }
  passed : ∀ a : Arbiter κ, R a a.runPass.1
  retained : ∀ (a : Arbiter κ) (live : List Int), R a (a.retain live).1

namespace Composed

variable {R : Arbiter κ → Arbiter κ → Prop}

theorem serve (h : Composed R) (a : Arbiter κ) : R a a.serve.1 := by
  unfold Arbiter.serve
  split
  · exact h.refl a
  · next r q _ => exact h.trans (h.queued a (some (q.lower r))) (h.passed _)

theorem serveAll (h : Composed R) (a : Arbiter κ) : R a a.serveAll.1 := by
  have hfold : ∀ (requests : List PassRequest) (s : Arbiter κ × Option KillReport),
      R s.1 (requests.foldl (fun s _ => s.1.serve) s).1 := by
    intro requests
    induction requests with
    | nil => exact fun s => h.refl s.1
    | cons r requests ih => exact fun s => h.trans (h.serve s.1) (ih s.1.serve)
  exact hfold _ (a, none)

theorem signal (h : Composed R) (a : Arbiter κ) (times : Nat) : R a (a.signal times) :=
  h.trans (h.queued a (a.passes.map fun q => times.fold (fun _ _ q => q.signal) q)) (h.serveAll _)

theorem pass (h : Composed R) (a : Arbiter κ) : R a a.pass.1 := by
  unfold Arbiter.pass
  split
  · exact h.refl a
  · split
    · exact h.refl a
    · next q _ => exact h.trans (h.queued a (some q)) (h.serveAll _)

theorem watch (h : Composed R) (a : Arbiter κ) (m : Monitor) : R a (a.watch m) := by
  have hsampled := h.sampled a m
  unfold Arbiter.watch
  simp only
  split
  · exact h.trans hsampled (h.signal _ 1)
  · exact hsampled

theorem sweep (h : Composed R) (a : Arbiter κ) : R a a.sweep := by
  unfold Arbiter.sweep
  split
  · next live _ => exact h.retained a live
  · exact h.refl a

end Composed

/-- From `a` to `a'` the clock has stood still and the task has at most taken up internal requests. -/
structure Serves (settings : Settings) (a a' : Arbiter κ) : Prop where
  now : a'.now = a.now
  monitors : a'.monitors = a.monitors
  sweeps : a'.sweeps = a.sweeps
  task : ∀ trace since timers t, a.priority = some t →
    Serving κ settings trace since timers a.now t →
      ∃ t', a'.priority = some t' ∧ Serving κ settings trace since timers a.now t'

theorem serves_of_eq (settings : Settings) (hnow : a'.now = a.now)
    (hmonitors : a'.monitors = a.monitors) (hsweeps : a'.sweeps = a.sweeps)
    (hpriority : a'.priority = a.priority) : a.Serves settings a' :=
  ⟨hnow, hmonitors, hsweeps, fun _ _ _ t ht h => ⟨t, hpriority.trans ht, h⟩⟩

theorem Serves.refl (settings : Settings) (a : Arbiter κ) : a.Serves settings a :=
  serves_of_eq settings rfl rfl rfl rfl

theorem Serves.trans (h : a.Serves settings a') (h' : a'.Serves settings a'') :
    a.Serves settings a'' := by
  refine ⟨h'.now.trans h.now, h'.monitors.trans h.monitors, h'.sweeps.trans h.sweeps, ?_⟩
  intro trace since timers t ht hserving
  obtain ⟨t', ht', hserving'⟩ := h.task trace since timers t ht hserving
  rw [← h.now] at hserving' ⊢
  exact h'.task trace since timers t' ht' hserving'

theorem serves_runPass (settings : Settings) (a : Arbiter κ) : a.Serves settings a.runPass.1 := by
  refine ⟨rfl, rfl, rfl, ?_⟩
  intro trace since timers t ht hserving
  have hmark : ∀ (o : Option PriorityTask) (uid : Int),
      (∃ t', o = some t' ∧ Serving κ settings trace since timers a.now t') →
      ∃ t', (Roster.mark o uid).2 = some t' ∧ Serving κ settings trace since timers a.now t' := by
    rintro o uid ⟨t', rfl, h⟩
    exact ⟨_, rfl, h.take (r := .noteKilled uid) rfl (fun _ _ hr => nomatch hr) a.kernel⟩
  show ∃ t', (a.killer.pass a.kernel a.priority).1.roster = some t' ∧ _
  unfold Killer.pass
  split
  · exact ⟨t, ht, hserving⟩
  · next rows _ =>
    obtain ⟨turns, ending, hcourse⟩ :=
      exists_course a.killer rows [] { kernel := a.kernel, roster := a.priority }
    rw [hcourse.roster_eq rfl]
    exact Roster.markAll_induction (P := fun o => ∃ t', o = some t' ∧ _) hmark ⟨t, ht, hserving⟩ _

omit [Kernel κ] in
theorem call_priority {t : PriorityTask} (ht : a.priority = some t) {α : Type}
    (handle : PriorityTask → Handled κ α) : (a.call handle).1.priority = some (handle t).task := by
  unfold call
  rw [ht]
  rfl

omit [Kernel κ] in
theorem call_rest (a : Arbiter κ) {α : Type} (handle : PriorityTask → Handled κ α) :
    (a.call handle).1.now = a.now ∧ (a.call handle).1.monitors = a.monitors ∧
      (a.call handle).1.sweeps = a.sweeps := by
  unfold call
  split <;> exact ⟨rfl, rfl, rfl⟩

theorem serves_retain (settings : Settings) (a : Arbiter κ) (live : List Int) :
    a.Serves settings (a.retain live).1 := by
  obtain ⟨hnow, hmonitors, hsweeps⟩ := a.call_rest fun t => t.retain a.now a.kernel live
  refine ⟨hnow, hmonitors, hsweeps, ?_⟩
  intro trace since timers t ht hserving
  exact ⟨_, call_priority ht _,
    hserving.take (r := .retain live) rfl (fun _ _ hr => nomatch hr) a.kernel⟩

theorem composed_serves (settings : Settings) : Composed (Serves (κ := κ) settings) where
  refl := Serves.refl settings
  trans h h' := h.trans h'
  queued _ _ := serves_of_eq settings rfl rfl rfl rfl
  sampled _ _ := serves_of_eq settings rfl rfl rfl rfl
  passed := serves_runPass settings
  retained := serves_retain settings

end Arbiter

end MemoryArbiter
