import MemoryArbiter.Proofs.Arbiter.Timely
import MemoryArbiter.Proofs.Killer.Accounts
import MemoryArbiter.Proofs.Lifecycle.Spent

/-! # The chronicle of an arbiter

Whatever an arbiter does can be written down as the requests that its priority task takes up and the
passes of its killer, in their order.  Between them only things happen that are none of the engine's
business: the kernel goes on by itself, the clock moves, timers and queues change.
-/

namespace MemoryArbiter

inductive Matter
  | request (r : Request)
  /-- A pass, and the processes that the kernel killed for it. -/
  | pass (report : KillReport) (died : List Int)

/-- What happened, with the engine before and after it. -/
structure Entry where
  before : Engine
  matter : Matter
  after : Engine

def Matter.internal : Matter → Bool
  | request r => r.internal
  | pass _ _ => true

namespace Arbiter

def engine? {κ : Type} (a : Arbiter κ) : Option Engine := a.priority.map PriorityTask.engine

def ask {κ : Type} [Kernel κ] (a : Arbiter κ) (r : Request) : Arbiter κ :=
  (a.call fun t => t.handle a.now a.kernel (.work r)).1

/-- From `a` the arbiter comes to `b`, and `log` is what is written down of it. -/
inductive Unfolds : Arbiter SimulatedKernel → List Entry → Arbiter SimulatedKernel → Prop
  | done (a : Arbiter SimulatedKernel) : Unfolds a [] a
  | aside {a a' b : Arbiter SimulatedKernel} {log : List Entry} (engine : a'.engine? = a.engine?)
      (killer : a'.killer = a.killer) (notices : a'.notices = a.notices) (rest : Unfolds a' log b) :
      Unfolds a log b
  | request {a b : Arbiter SimulatedKernel} {log : List Entry} {e e' : Engine} (r : Request)
      (before : a.engine? = some e) (after : (a.ask r).engine? = some e')
      (rest : Unfolds (a.ask r) log b) : Unfolds a (⟨e, .request r, e'⟩ :: log) b
  | pass {a b : Arbiter SimulatedKernel} {log : List Entry} {e e' : Engine} {died : List Int}
      (before : a.engine? = some e) (after : a.runPass.1.engine? = some e')
      (kills : a.runPass.1.kernel.killed = a.kernel.killed ++ died)
      (rest : Unfolds a.runPass.1 log b) : Unfolds a (⟨e, .pass a.runPass.2 died, e'⟩ :: log) b

/-- What is written down of the deed `d`: what it asks of the task, or else what comes of it. -/
structure Logs (a : Arbiter SimulatedKernel) (d : Deed SimulatedKernel) (log : List Entry) :
    Prop where
  unfolds : a.Unfolds log (a.act d)
  asked : ∀ r, d.request? = some r → log.map Entry.matter = [.request r]
  unasked : d.request? = none → ∀ x ∈ log, x.matter.internal = true

inductive Chronicled : Arbiter SimulatedKernel → List (Deed SimulatedKernel) → List Entry → Prop
  | nil (a : Arbiter SimulatedKernel) : Chronicled a [] []
  | cons {a : Arbiter SimulatedKernel} {d : Deed SimulatedKernel}
      {deeds : List (Deed SimulatedKernel)} {first log : List Entry} (here : a.Logs d first)
      (rest : Chronicled (a.act d) deeds log) : Chronicled a (d :: deeds) (first ++ log)

theorem Unfolds.trans {a b c : Arbiter SimulatedKernel} {first others : List Entry}
    (h : a.Unfolds first b) (h' : b.Unfolds others c) : a.Unfolds (first ++ others) c := by
  induction h with
  | done a => exact h'
  | aside engine killer notices rest ih => exact .aside engine killer notices (ih h')
  | request r before after rest ih => exact .request r before after (ih h')
  | pass before after kills rest ih => exact .pass before after kills (ih h')

theorem Chronicled.unfolds {a : Arbiter SimulatedKernel} {deeds : List (Deed SimulatedKernel)}
    {log : List Entry} (h : a.Chronicled deeds log) : a.Unfolds log (deeds.foldl Arbiter.act a) := by
  induction h with
  | nil a => exact .done a
  | cons here rest ih => exact here.unfolds.trans ih

/-! ### Requests and passes -/

section

variable {κ : Type} [Kernel κ] {a : Arbiter κ} {e : Engine} {t : PriorityTask}

omit [Kernel κ] in
theorem call_mapReply (a : Arbiter κ) {α β : Type} (f : α → β) (handle : PriorityTask → Handled κ α) :
    (a.call fun t => (handle t).mapReply f).1 = (a.call handle).1 := by
  unfold call
  cases a.priority <;> rfl

theorem update_eq_ask (a : Arbiter κ) (ev : Event) : (a.update ev).1 = a.ask (.event ev) :=
  (a.call_mapReply _ _).symm

theorem switchTo_eq_ask (a : Arbiter κ) (account : Int) :
    (a.switchTo account).1 = a.ask (.switchTo account) :=
  (a.call_mapReply _ _).symm

theorem retain_eq_ask (a : Arbiter κ) (live : List Int) :
    (a.retain live).1 = a.ask (.retain live) :=
  (a.call_mapReply _ _).symm

theorem timerFired_eq_ask (a : Arbiter κ) (pid : Int) (token : Nat) :
    (a.timerFired pid token).1 = a.ask (.expireBoost pid token) :=
  (a.call_mapReply _ _).symm

theorem mark_eq_ask (he : a.engine? = some e) (uid : Int) :
    (a.mark uid).1 = a.ask (.noteKilled uid) := by
  obtain ⟨t, ht, -⟩ := Option.map_eq_some_iff.mp he
  unfold mark ask call
  rw [ht]
  simp only [absorb, PriorityTask.handle, List.append_nil]
  rfl

theorem ask_priority (ht : a.priority = some t) (r : Request) :
    (a.ask r).priority = some (t.handle a.now a.kernel (.work r)).task :=
  call_priority ht _

theorem ask_engine? (he : a.engine? = some e) (sound : e.Sound) (r : Request) :
    (a.ask r).engine? = some (e.after r) := by
  obtain ⟨t, ht, rfl⟩ := Option.map_eq_some_iff.mp he
  have hfollows := PriorityTask.handle_follows sound a.now a.kernel r
  unfold engine?
  rw [ask_priority ht, Option.map_some, hfollows.engine]

theorem runPass_course (ht : a.priority = some t) : ∃ turns ending h,
    Course a.killer t.engine.snapshot [] { kernel := a.kernel, roster := some t } turns ending h ∧
      a.runPass.1.kernel = h.kernel ∧ a.runPass.1.priority = h.roster ∧ a.runPass.2 = h.report ∧
      a.runPass.1.notices = a.notices ++ (h.report.killed.map Kill.notice ++ [h.report.notice]) := by
  obtain ⟨turns, ending, c⟩ := exists_course a.killer t.engine.snapshot []
    ({ kernel := a.kernel, roster := some t } : Hunt κ (Option PriorityTask))
  refine ⟨turns, ending, _, c, ?_⟩
  rw [← c.announced rfl]
  unfold runPass
  rw [ht]
  exact ⟨rfl, rfl, rfl, rfl⟩

end

theorem markAll_priority (t : PriorityTask) (uids : List Int) :
    (Roster.markAll (some t) uids).map PriorityTask.engine = some (t.engine.marked uids) := by
  induction uids generalizing t with
  | nil => rfl
  | cons uid uids ih => exact ih (t.noteKilled uid).1

theorem runPass_engine? {κ : Type} [Kernel κ] {a : Arbiter κ} {e : Engine}
    (he : a.engine? = some e) :
    a.runPass.1.engine? = some (e.marked (a.runPass.2.killed.map Kill.uid)) := by
  obtain ⟨t, ht, rfl⟩ := Option.map_eq_some_iff.mp he
  obtain ⟨turns, ending, h, c, -, hpriority, hreport, -⟩ := runPass_course ht
  unfold engine?
  rw [hpriority, hreport, c.roster_eq rfl]
  exact markAll_priority t _

/-! ### What an arbiter does by itself -/

/-- From `a` the arbiter comes to `b` without being asked from outside. -/
def Proceeds (a b : Arbiter SimulatedKernel) : Prop :=
  ∀ e, a.engine? = some e → e.Sound → ∃ e' log, b.engine? = some e' ∧ e'.Sound ∧
    a.Unfolds log b ∧ ∀ x ∈ log, x.matter.internal = true

variable {a a' a'' : Arbiter SimulatedKernel}

theorem Proceeds.trans (h : a.Proceeds a') (h' : a'.Proceeds a'') : a.Proceeds a'' := by
  intro e he sound
  obtain ⟨e₁, first, he₁, sound₁, hfirst, hint⟩ := h e he sound
  obtain ⟨e₂, others, he₂, sound₂, hothers, hint'⟩ := h' e₁ he₁ sound₁
  refine ⟨e₂, first ++ others, he₂, sound₂, hfirst.trans hothers, ?_⟩
  intro x hx
  rcases List.mem_append.mp hx with hx | hx
  · exact hint x hx
  · exact hint' x hx

theorem proceeds_aside (engine : a'.engine? = a.engine?) (killer : a'.killer = a.killer)
    (notices : a'.notices = a.notices) : a.Proceeds a' :=
  fun e he sound => ⟨e, [], engine.trans he, sound, .aside engine killer notices (.done a'),
    fun _ hx => nomatch hx⟩

theorem Proceeds.refl (a : Arbiter SimulatedKernel) : a.Proceeds a := proceeds_aside rfl rfl rfl

theorem proceeds_ask (a : Arbiter SimulatedKernel) {r : Request} (internal : r.internal = true) :
    a.Proceeds (a.ask r) := by
  intro e he sound
  have hafter := ask_engine? he sound r
  refine ⟨e.after r, _, hafter, sound.after r, .request r he hafter (.done _), ?_⟩
  intro x hx
  rw [List.mem_singleton.mp hx]
  exact internal

theorem proceeds_runPass (a : Arbiter SimulatedKernel) : a.Proceeds a.runPass.1 := by
  intro e he sound
  obtain ⟨t, ht, -⟩ := Option.map_eq_some_iff.mp he
  obtain ⟨turns, ending, h, c, hkernel, -⟩ := runPass_course ht
  obtain ⟨died, -, hdied⟩ := c.died
  have hafter := runPass_engine? he
  rw [← hkernel] at hdied
  refine ⟨_, _, hafter, sound.marked _, .pass he hafter hdied (.done _), ?_⟩
  intro x hx
  rw [List.mem_singleton.mp hx]
  rfl

theorem composed_proceeds : Composed Proceeds where
  refl := Proceeds.refl
  trans h h' := h.trans h'
  queued _ _ := proceeds_aside rfl rfl rfl
  sampled _ _ := proceeds_aside rfl rfl rfl
  passed := proceeds_runPass
  retained a live := by
    rw [retain_eq_ask]
    exact proceeds_ask a rfl

theorem proceeds_ring (a : Arbiter SimulatedKernel) (alarm : Alarm) : a.Proceeds (a.ring alarm) := by
  cases alarm with
  | boost pid token =>
    unfold ring
    simp only
    split
    · next t hfire =>
      obtain ⟨t₀, ht₀, hfires⟩ := Option.bind_eq_some_iff.mp hfire
      obtain ⟨timer, -, -, -, rfl⟩ := PriorityTask.fire?_eq_some hfires
      -- that the timer has fired is noted in the task, not in its engine
      have hfired : a.Proceeds
          { a with
            priority := some
              { t₀ with timers := t₀.timers.insert pid { timer with fired := true } } } := by
        refine proceeds_aside ?_ rfl rfl
        unfold engine?
        rw [ht₀]
        rfl
      rw [timerFired_eq_ask]
      exact hfired.trans (proceeds_ask _ rfl)
    · exact Proceeds.refl a
  | sample m => exact composed_proceeds.watch a m
  | sweep => exact composed_proceeds.sweep a

theorem proceeds_advance (a : Arbiter SimulatedKernel) (ms : Nat) : a.Proceeds (a.advance ms) := by
  have hfold : ∀ (alarms : List (Nat × Alarm)) (a : Arbiter SimulatedKernel),
      a.Proceeds (alarms.foldl (fun a alarm => { a with now := alarm.1 }.ring alarm.2) a) := by
    intro alarms
    induction alarms with
    | nil => exact Proceeds.refl
    | cons x alarms ih =>
      intro a
      have hmoved : a.Proceeds { a with now := x.1 } := proceeds_aside rfl rfl rfl
      exact (hmoved.trans (proceeds_ring _ x.2)).trans (ih _)
  exact (hfold (a.alarms (a.now + ms)) a).trans (proceeds_aside rfl rfl rfl)

theorem proceeds_startMonitor (a : Arbiter SimulatedKernel) (m : Monitor) (period : Nat) :
    a.Proceeds (a.startMonitor m period) := by
  unfold startMonitor
  split
  · exact Proceeds.refl a
  · exact (composed_proceeds.watch a m).trans (proceeds_aside rfl rfl rfl)

theorem proceeds_sweepBy (a : Arbiter SimulatedKernel) (c : Config) : a.Proceeds (a.sweepBy c) := by
  unfold sweepBy
  split
  · exact Proceeds.refl a
  · exact proceeds_aside rfl rfl rfl

/-! ### Deeds -/

theorem Proceeds.logs {d : Deed SimulatedKernel} {e : Engine} (h : a.Proceeds (a.act d))
    (unasked : d.request? = none) (he : a.engine? = some e) (sound : e.Sound) :
    ∃ e' log, (a.act d).engine? = some e' ∧ e'.Sound ∧ a.Logs d log := by
  obtain ⟨e', log, he', sound', hunfolds, hinternal⟩ := h e he sound
  exact ⟨e', log, he', sound', hunfolds, (fun r hr => nomatch unasked.symm.trans hr),
    fun _ => hinternal⟩

theorem logs_request {d : Deed SimulatedKernel} {e : Engine} {r : Request}
    (asked : d.request? = some r) (hact : a.act d = a.ask r) (he : a.engine? = some e)
    (sound : e.Sound) : ∃ e' log, (a.act d).engine? = some e' ∧ e'.Sound ∧ a.Logs d log := by
  have hafter := ask_engine? he sound r
  refine ⟨e.after r, [⟨e, .request r, e.after r⟩], hact ▸ hafter, sound.after r, ?_, ?_, ?_⟩
  · rw [hact]
    exact .request r he hafter (.done _)
  · intro r' hr'
    cases asked.symm.trans hr'
    rfl
  · exact fun hnone => nomatch asked.symm.trans hnone

theorem exists_logs (he : a.engine? = some e) (sound : e.Sound) (d : Deed SimulatedKernel) :
    ∃ e' log, (a.act d).engine? = some e' ∧ e'.Sound ∧ a.Logs d log := by
  cases d with
  | event ev => exact logs_request rfl (update_eq_ask a ev) he sound
  | switchTo account => exact logs_request rfl (switchTo_eq_ask a account) he sound
  | retain live => exact logs_request rfl (retain_eq_ask a live) he sound
  | mark uid => exact logs_request rfl (mark_eq_ask he uid) he sound
  | signal times => exact (composed_proceeds.signal a times).logs rfl he sound
  | pass => exact (composed_proceeds.pass a).logs rfl he sound
  | startMonitor m period => exact (proceeds_startMonitor a m period).logs rfl he sound
  | sweepBy c => exact (proceeds_sweepBy a c).logs rfl he sound
  | stopKiller =>
    have hstopped : a.Proceeds (a.act .stopKiller) := proceeds_aside rfl rfl rfl
    exact hstopped.logs rfl he sound
  | advance ms => exact (proceeds_advance a ms).logs rfl he sound
  | setKernel kernel =>
    have hchanged : a.Proceeds (a.act (.setKernel kernel)) := proceeds_aside rfl rfl rfl
    exact hchanged.logs rfl he sound

theorem exists_chronicle (deeds : List (Deed SimulatedKernel)) {e : Engine}
    (he : a.engine? = some e) (sound : e.Sound) : ∃ log, a.Chronicled deeds log := by
  induction deeds generalizing a e with
  | nil => exact ⟨[], .nil a⟩
  | cons d deeds ih =>
    obtain ⟨e', first, he', sound', hfirst⟩ := exists_logs he sound d
    obtain ⟨log, hlog⟩ := ih he' sound'
    exact ⟨first ++ log, .cons hfirst hlog⟩

end Arbiter

end MemoryArbiter
