import MemoryArbiter.Arbiter.Start
import MemoryArbiter.Proofs.Arbiter.Advance

/-! # Timers match boosts

The timers of the priority task are those of the boosts that wait, whatever happens and in whichever
order; and in every course of an arbiter, whose clock moves only by `Arbiter.advance`, boosts are
taken back in time.
-/

namespace MemoryArbiter

/-- What can happen to an arbiter as long as its priority task is not stopped. -/
inductive Deed (κ : Type)
  | event (ev : Event)
  | switchTo (account : Int)
  | retain (live : List Int)
  | mark (uid : Int)
  | signal (times : Nat)
  | pass
  | startMonitor (m : Monitor) (period : Nat)
  | sweepBy (c : Config)
  | stopKiller
  | advance (ms : Nat)
  /-- The machine goes on by itself. -/
  | setKernel (kernel : κ)

/-- What a deed asks of the priority task directly. -/
def Deed.request? {κ : Type} : Deed κ → Option Request
  | event ev => some (.event ev)
  | switchTo account => some (.switchTo account)
  | retain live => some (.retain live)
  | mark uid => some (.noteKilled uid)
  | _ => none

namespace Arbiter

variable {κ : Type} [Kernel κ]

def act (a : Arbiter κ) : Deed κ → Arbiter κ
  | .event ev => (a.update ev).1
  | .switchTo account => (a.switchTo account).1
  | .retain live => (a.retain live).1
  | .mark uid => (a.mark uid).1
  | .signal times => a.signal times
  | .pass => a.pass.1
  | .startMonitor m period => a.startMonitor m period
  | .sweepBy c => a.sweepBy c
  | .stopKiller => a.stopKiller
  | .advance ms => a.advance ms
  | .setKernel kernel => { a with kernel := kernel }

/-- `asked` can be what the priority task of `a` takes up with the deed `d`. -/
def Asks (a : Arbiter κ) (d : Deed κ) (asked : Trace) : Prop :=
  match d.request? with
  | some r => asked = [(a.now, r)]
  | none => ∀ x ∈ asked, x.2.internal = true ∧ a.now ≤ x.1 ∧ x.1 ≤ (a.act d).now

inductive Asked : Arbiter κ → List (Deed κ) → Trace → Prop
  | nil (a : Arbiter κ) : Asked a [] []
  | cons {a : Arbiter κ} {d : Deed κ} {deeds : List (Deed κ)} {asked trace : Trace}
      (here : a.Asks d asked) (rest : Asked (a.act d) deeds trace) :
      Asked a (d :: deeds) (asked ++ trace)

/-- The task `t` of `a` is on the clock, and nothing is due any more. -/
structure InTime (settings : Settings) (a : Arbiter κ) (trace : Trace) (t : PriorityTask) : Prop where
  priority : a.priority = some t
  clocked : PriorityTask.Clocked κ settings a.now t [] trace
  later : ∀ pid timer, t.timers.get? pid = some timer → a.now < timer.due
  ready : a.Ready

variable {settings : Settings} {a b : Arbiter κ} {trace : Trace} {t : PriorityTask}

omit [Kernel κ] in
theorem Ready.of_eq (h : a.Ready) (hnow : b.now = a.now) (hmonitors : b.monitors = a.monitors)
    (hsweeps : b.sweeps = a.sweeps) : b.Ready := by
  constructor
  · rw [hnow, hmonitors]
    exact h.monitors
  · rw [hnow, hsweeps]
    exact h.sweeps

theorem InTime.of_eq (h : a.InTime settings trace t) (hpriority : b.priority = a.priority)
    (hnow : b.now = a.now) (hready : b.Ready) : b.InTime settings trace t := by
  refine ⟨hpriority.trans h.priority, ?_, ?_, hready⟩
  · rw [hnow]
    exact h.clocked
  · rw [hnow]
    exact h.later

theorem InTime.request (h : a.InTime settings trace t) (r : Request) (kernel : κ)
    (outside : ∀ pid token, r ≠ .expireBoost pid token)
    (hpriority : b.priority = some (t.handle a.now kernel (.work r)).task)
    (hrest : b.now = a.now ∧ b.monitors = a.monitors ∧ b.sweeps = a.sweeps) :
    ∃ t', b.InTime settings (trace ++ [(a.now, r)]) t' := by
  obtain ⟨hnow, hmonitors, hsweeps⟩ := hrest
  refine ⟨_, hpriority, ?_, ?_, h.ready.of_eq hnow hmonitors hsweeps⟩
  · rw [hnow]
    exact h.clocked.take r outside kernel
  · intro pid timer htimer
    rw [hnow]
    rcases h.clocked.onTime.timer_cases r kernel htimer with ⟨hold, -⟩ | ⟨hdue, -, hperiod, -⟩
    · exact h.later pid timer hold
    · omega

theorem InTime.serves (h : a.InTime settings trace t) (hserves : a.Serves settings b)
    (hready : b.Ready) :
    ∃ t' asked, (∀ x ∈ asked, x.2.internal = true ∧ a.now ≤ x.1 ∧ x.1 ≤ b.now) ∧
      b.InTime settings (trace ++ asked) t' := by
  obtain ⟨t', ht', hserving⟩ := hserves.task _ _ _ t h.priority (Serving.start h.clocked)
  obtain ⟨asked, hasked, hclocked⟩ := hserving.clocked
  rw [← hserves.now] at hclocked
  refine ⟨t', asked, ?_, ht', hclocked, ?_, hready⟩
  · rw [hserves.now]
    exact hasked
  · intro pid timer htimer
    rw [hserves.now]
    exact h.later pid timer (hserving.shrunk pid timer htimer)

theorem InTime.advance (h : a.InTime settings trace t) (ms : Nat) :
    ∃ t' asked, (∀ x ∈ asked, x.2.internal = true ∧ a.now ≤ x.1 ∧ x.1 ≤ (a.advance ms).now) ∧
      (a.advance ms).InTime settings (trace ++ asked) t' := by
  obtain ⟨t', ht', hserving, hlater⟩ := h.ready.advance ms h.priority h.clocked
  obtain ⟨asked, hasked, hclocked⟩ := hserving.clocked
  refine ⟨t', asked, hasked, ht', hclocked, hlater, ?_, ?_⟩
  · intro p hp
    obtain ⟨q, hq, rfl⟩ := List.mem_map.mp hp
    exact (h.ready.monitors q hq).after _
  · intro p hp
    obtain ⟨q, hq, rfl⟩ := List.mem_map.mp hp
    exact (h.ready.sweeps q hq).after _

theorem ready_startMonitor (h : a.Ready) (m : Monitor) {period : Nat} (hperiod : period ≠ 0) :
    (a.startMonitor m period).Ready := by
  have hwatch := (composed_serves {}).watch a m
  have hready := h.of_eq hwatch.now hwatch.monitors hwatch.sweeps
  unfold startMonitor
  rw [if_neg hperiod]
  refine ⟨?_, hready.sweeps⟩
  intro p hp
  rcases List.mem_append.mp hp with hp | hp
  · exact hready.monitors p hp
  · rw [List.mem_singleton.mp hp]
    refine ⟨Nat.pos_of_ne_zero hperiod, ?_⟩
    show (a.watch m).now ≤ (a.watch m).now + period
    omega

omit [Kernel κ] in
theorem ready_sweepBy (h : a.Ready) (c : Config) : (a.sweepBy c).Ready := by
  unfold sweepBy
  split
  · exact h
  · next hinterval =>
    refine ⟨h.monitors, ?_⟩
    intro p hp
    rcases List.mem_append.mp hp with hp | hp
    · exact h.sweeps p hp
    · rw [List.mem_singleton.mp hp]
      exact ⟨by simp only; omega, Nat.le_add_right _ _⟩

theorem InTime.idle (h : a.InTime settings trace t) (hpriority : b.priority = a.priority)
    (hnow : b.now = a.now) (hready : b.Ready) :
    ∃ t' asked, (∀ x ∈ asked, x.2.internal = true ∧ a.now ≤ x.1 ∧ x.1 ≤ b.now) ∧
      b.InTime settings (trace ++ asked) t' := by
  refine ⟨t, [], (fun _ hx => nomatch hx), ?_⟩
  rw [List.append_nil]
  exact h.of_eq hpriority hnow hready

theorem InTime.startMonitor (h : a.InTime settings trace t) (m : Monitor) (period : Nat) :
    ∃ t' asked, (∀ x ∈ asked, x.2.internal = true ∧ a.now ≤ x.1 ∧ x.1 ≤ (a.startMonitor m period).now) ∧
      (a.startMonitor m period).InTime settings (trace ++ asked) t' := by
  by_cases hperiod : period = 0
  · have hsame : a.startMonitor m period = a := if_pos hperiod
    rw [hsame]
    exact h.idle rfl rfl h.ready
  · have hwatch := (composed_serves settings).watch a m
    have hpriority : (a.startMonitor m period).priority = (a.watch m).priority ∧
        (a.startMonitor m period).now = (a.watch m).now := by
      unfold Arbiter.startMonitor
      rw [if_neg hperiod]
      exact ⟨rfl, rfl⟩
    obtain ⟨t', asked, hasked, hin⟩ := h.serves hwatch
      (h.ready.of_eq hwatch.now hwatch.monitors hwatch.sweeps)
    rw [hpriority.2]
    exact ⟨t', asked, hasked,
      hin.of_eq hpriority.1 hpriority.2 (ready_startMonitor h.ready m hperiod)⟩

/-- A deed asks what it should of the priority task, and afterwards nothing is due. -/
theorem InTime.act (h : a.InTime settings trace t) (d : Deed κ) :
    ∃ t' asked, a.Asks d asked ∧ (a.act d).InTime settings (trace ++ asked) t' := by
  cases d with
  | event ev =>
    obtain ⟨t', ht'⟩ := h.request (.event ev) a.kernel (fun _ _ hr => nomatch hr)
      (call_priority h.priority fun t => t.update a.now a.kernel ev) (call_rest a _)
    exact ⟨t', _, rfl, ht'⟩
  | switchTo account =>
    obtain ⟨t', ht'⟩ := h.request (.switchTo account) a.kernel
      (fun _ _ hr => nomatch hr)
      (call_priority h.priority fun t => t.switchTo a.now a.kernel account) (call_rest a _)
    exact ⟨t', _, rfl, ht'⟩
  | retain live =>
    obtain ⟨t', ht'⟩ := h.request (.retain live) a.kernel
      (fun _ _ hr => nomatch hr)
      (call_priority h.priority fun t => t.retain a.now a.kernel live) (call_rest a _)
    exact ⟨t', _, rfl, ht'⟩
  | mark uid =>
    have hpriority : (a.mark uid).1.priority =
        some (t.handle a.now a.kernel (.work (.noteKilled uid))).task := by
      unfold mark
      rw [h.priority]
      rfl
    obtain ⟨t', ht'⟩ := h.request (.noteKilled uid) a.kernel (fun _ _ hr => nomatch hr) hpriority
      ⟨rfl, rfl, rfl⟩
    exact ⟨t', _, rfl, ht'⟩
  | signal times =>
    have hserves := (composed_serves settings).signal a times
    exact h.serves hserves (h.ready.of_eq hserves.now hserves.monitors hserves.sweeps)
  | pass =>
    have hserves := (composed_serves settings).pass a
    exact h.serves hserves (h.ready.of_eq hserves.now hserves.monitors hserves.sweeps)
  | startMonitor m period => exact h.startMonitor m period
  | sweepBy c =>
    have hsame : (a.sweepBy c).priority = a.priority ∧ (a.sweepBy c).now = a.now := by
      unfold sweepBy
      split <;> exact ⟨rfl, rfl⟩
    exact h.idle hsame.1 hsame.2 (ready_sweepBy h.ready c)
  | stopKiller => exact h.idle rfl rfl (h.ready.of_eq rfl rfl rfl)
  | advance ms => exact h.advance ms
  | setKernel kernel => exact h.idle rfl rfl (h.ready.of_eq rfl rfl rfl)

theorem InTime.acts (deeds : List (Deed κ)) (h : a.InTime settings trace t) :
    ∃ t' asked, a.Asked deeds asked ∧ (deeds.foldl Arbiter.act a).InTime settings (trace ++ asked) t' := by
  induction deeds generalizing a trace t with
  | nil =>
    refine ⟨t, [], .nil a, ?_⟩
    rw [List.append_nil]
    exact h
  | cons d deeds ih =>
    obtain ⟨t₁, first, hfirst, hin⟩ := h.act d
    obtain ⟨t', others, hothers, hdone⟩ := ih hin
    refine ⟨t', first ++ others, .cons hfirst hothers, ?_⟩
    rw [← List.append_assoc]
    exact hdone

theorem inTime_new (settings : Settings) (killer : Killer) (capacity : Nat) (kernel : κ) :
    (Arbiter.new settings killer capacity kernel).InTime settings [] (PriorityTask.start settings) :=
  ⟨rfl, .start 0, (fun _ _ ht => nomatch ht), (fun _ hp => nomatch hp), (fun _ hp => nomatch hp)⟩

end Arbiter

namespace PriorityTask

/-- The timers match the boosts that wait, and boosts are taken back in time. -/
structure Timely (κ : Type) [Kernel κ] (settings : Settings) : Prop where
  /-- After any requests, in any order, also those of timers that have nothing to take back. -/
  matched : ∀ calls : List (Call κ),
    ((start settings).afterCalls calls).engine.TimedBy ((start settings).afterCalls calls).timers
  late : ∀ (calls : List (Call κ)) (now : Nat) (kernel : κ) (pid : Int) (token : Nat),
    (¬ ∃ b, ((start settings).afterCalls calls).engine.boost? pid = some b ∧ b.token = token) →
      (((start settings).afterCalls calls).timerFired now kernel pid token).task =
        (start settings).afterCalls calls
  /-- A boost that waits has a timer which is yet to fire, or whose request is in the mail. -/
  served : ∀ n t mail trace, Clocked κ settings n t mail trace →
    ∀ pid b, t.engine.boost? pid = some b → ∃ timer, t.timers.get? pid = some timer ∧
      timer.token = b.token ∧ n ≤ timer.due ∧ (timer.fired = true → (pid, b.token) ∈ mail)
  punctual : ∀ n t mail trace, Clocked κ settings n t mail trace →
    ∀ (before : Trace) (a : Nat) (r : Request) (between : Trace) (pid : Int) (token : Nat),
      trace = before ++ (a, r) :: between →
      (pid, token) ∈ ((before.engine settings).reportOf r).armings →
        Trace.Punctual settings n n ((before.engine settings).after r) a between pid token
  /-- In every course of an arbiter the task is on the clock, and all that was due up to now has been
  done. -/
  arbiter : ∀ (killer : Killer) (capacity : Nat) (kernel : κ) (deeds : List (Deed κ)),
    ∃ t trace,
      (deeds.foldl Arbiter.act (.new settings killer capacity kernel)).priority = some t ∧
      (Arbiter.new settings killer capacity kernel).Asked deeds trace ∧
      Clocked κ settings (deeds.foldl Arbiter.act (.new settings killer capacity kernel)).now t []
        trace ∧
      ∀ (before : Trace) (a : Nat) (r : Request) (between : Trace) (pid : Int) (token : Nat),
        trace = before ++ (a, r) :: between →
        (pid, token) ∈ ((before.engine settings).reportOf r).armings →
          Trace.Punctual settings (deeds.foldl Arbiter.act (.new settings killer capacity kernel)).now
            ((deeds.foldl Arbiter.act (.new settings killer capacity kernel)).now + 1)
            ((before.engine settings).after r) a between pid token

theorem timely (κ : Type) [Kernel κ] (settings : Settings) : Timely κ settings := by
  have hmatched := fun calls : List (Call κ) => (matched_start settings).afterCalls calls
  refine ⟨fun calls => (hmatched calls).timed, ?_, ?_, ?_, ?_⟩
  · intro calls now kernel pid token hno
    rw [← (hmatched calls).tokened.accepts_iff] at hno
    exact timerFired_of_refused (hmatched calls).sound hno now kernel
  · exact fun n t mail trace h pid b hb => h.onTime.served hb
  · rintro n t mail _ h before a r between pid token rfl harm
    exact h.onTime.punctual harm fun q timer hq => h.onTime.due_le hq
  · intro killer capacity kernel deeds
    obtain ⟨t, trace, hasked, hin⟩ := (Arbiter.inTime_new settings killer capacity kernel).acts deeds
    rw [List.nil_append] at hin
    refine ⟨t, trace, hin.priority, hasked, hin.clocked, ?_⟩
    rintro before a r between pid token rfl harm
    exact hin.clocked.onTime.punctual harm fun q timer hq => hin.later q timer hq

end PriorityTask

end MemoryArbiter
