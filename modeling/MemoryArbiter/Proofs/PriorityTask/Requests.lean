import MemoryArbiter.PriorityTask
import MemoryArbiter.Proofs.Engine.Turnover

/-! # Requests to the priority task

Every request is taken up at some time, with the kernel as it is then.  What the task publishes, and
what becomes of its timers, can be told from the report of its engine alone; the kernel has no say in
it.
-/

namespace MemoryArbiter

inductive TaskRequest
  | work (r : Request)
  | rows
  | selfCheck
  deriving DecidableEq, Repr, Inhabited

inductive TaskReply
  | accepted (yes : Bool)
  | changed (bundles : Nat)
  | rows (rows : List BundleRow)
  | defect (text : Option String)
  /-- A timer does not wait for an answer. -/
  | nothing
  deriving DecidableEq, Repr, Inhabited

def Handled.mapReply {κ α β : Type} (f : α → β) (h : Handled κ α) : Handled κ β where
  task := h.task
  kernel := h.kernel
  notices := h.notices
  reply := f h.reply

/-- A request, and when and over which kernel it is taken up. -/
structure Call (κ : Type) where
  now : Nat
  kernel : κ
  request : TaskRequest

namespace PriorityTask

def start (settings : Settings) : PriorityTask := { engine := .new settings }

section

variable {κ : Type} [Kernel κ]

def handle (t : PriorityTask) (now : Nat) (kernel : κ) : TaskRequest → Handled κ TaskReply
  | .work (.event ev) => (t.update now kernel ev).mapReply .accepted
  | .work (.switchTo account) => (t.switchTo now kernel account).mapReply .accepted
  | .work (.retain live) => (t.retain now kernel live).mapReply .changed
  | .work (.expireBoost pid token) =>
    (t.timerFired now kernel pid token).mapReply fun _ => .nothing
  | .work (.noteKilled uid) =>
    { task := (t.noteKilled uid).1, kernel := kernel, reply := .accepted (t.noteKilled uid).2 }
  | .rows => t.answer kernel (.rows t.engine.snapshot)
  | .selfCheck => t.answer kernel (.defect t.engine.defect?)

def attend (t : PriorityTask) (c : Call κ) : Handled κ TaskReply :=
  t.handle c.now c.kernel c.request

def afterCalls (t : PriorityTask) (calls : List (Call κ)) : PriorityTask :=
  calls.foldl (fun t c => (t.attend c).task) t

def published (t : PriorityTask) : List (Call κ) → List Notice
  | [] => []
  | c :: calls => (t.attend c).notices ++ (t.attend c).task.published calls

end

end PriorityTask

/-! ### Timers -/

/-- What an effect does to the timers. -/
def Effect.setTimer (now : Nat) (timers : Table Int ArmedTimer) : Effect → Table Int ArmedTimer
  | .writeScore _ _ => timers
  | .armTimer pid token delay => timers.insert pid { token, due := now + delay }
  | .cancelTimer pid => timers.erase pid

namespace Engine

variable {e : Engine}

/-- The notice of the switch to which `r` leads in `e`, if it leads to one. -/
def switchNotices (e : Engine) (r : Request) : List Notice :=
  if (e.after r).current = e.current then []
  else PriorityTask.switchNotice e.current (e.after r).current

/-! ### The foreground -/

/-- No request leaves the engine without a foreground account that it had. -/
theorem after_current_cases (e : Engine) (r : Request) :
    (e.after r).current = e.current ∨ ∃ account, (e.after r).current = some account := by
  cases r with
  | event ev =>
    by_cases hr : ev.reason = .osAccountChanged
    · have hsw : e.after (.event ev) = (e.switchTo (accountOf ev.targetUid)).1 :=
        congrArg Prod.fst (update_of_switch hr)
      rw [hsw]
      exact Or.inr ⟨_, switchTo_current e _⟩
    · exact Or.inl (update_terms hr).current
  | switchTo account => exact Or.inr ⟨account, switchTo_current e account⟩
  | expireBoost pid token => exact Or.inl (expireBoost_terms e pid token).current
  | noteKilled uid => exact Or.inl (noteKilled_terms e uid).current
  | retain live => exact Or.inl (foldl_dropProcess_terms _ (e, {})).current

theorem current_ne_of_switched {account : Int} {report : StepReport}
    (hok : (e.switchTo account).2 = .ok report) : e.current ≠ some account := by
  intro hc
  unfold switchTo at hok
  rw [if_pos hc] at hok
  cases hok

theorem switchNotices_of_switched {r : Request} {account : Int} {report : StepReport}
    (hok : (e.switchTo account).2 = .ok report)
    (hr : (e.after r).current = (e.switchTo account).1.current) :
    e.switchNotices r = [.accountSwitched e.current account] := by
  have hne := current_ne_of_switched hok
  unfold switchNotices
  rw [hr, switchTo_current, if_neg (Ne.symm hne)]
  rfl

theorem switchNotices_of_same {r : Request} (h : (e.after r).current = e.current) :
    e.switchNotices r = [] :=
  if_pos h

end Engine

namespace PriorityTask

variable {κ : Type} [Kernel κ] {t : PriorityTask} {now : Nat} {kernel : κ}

theorem performAll_fst (now : Nat) (effects : List Effect) (t : PriorityTask) (kernel : κ) :
    (performAll now effects (t, kernel)).1 =
      { t with timers := effects.foldl (Effect.setTimer now) t.timers } := by
  unfold performAll
  induction effects generalizing t kernel with
  | nil => rfl
  | cons x effects ih =>
    cases x with
    | writeScore pid priority => exact ih t (Kernel.writeScore kernel pid priority).2
    | armTimer pid token delay => exact ih { t with timers := _ } kernel
    | cancelTimer pid => exact ih { t with timers := _ } kernel

theorem foldl_setTimer_timers (now : Nat) (effects : List Effect) (timers : Table Int ArmedTimer) :
    (effects.filter fun x => x.write?.isNone).foldl (Effect.setTimer now) timers =
      effects.foldl (Effect.setTimer now) timers := by
  induction effects generalizing timers with
  | nil => rfl
  | cons x effects ih =>
    cases x with
    | writeScore pid priority => exact ih timers
    | armTimer pid token delay => exact ih _
    | cancelTimer pid => exact ih _

/-- What handling `r` leads to, told from the engine. -/
structure Follows (t : PriorityTask) (now : Nat) (r : Request) (task : PriorityTask)
    (notices : List Notice) : Prop where
  engine : task.engine = t.engine.after r
  timers : task.timers = (t.engine.timerWork r).foldl (Effect.setTimer now) t.timers
  notices : notices = t.engine.switchNotices r ++ (t.engine.reportOf r).changes.map Change.notice

theorem follows_refused (sound : t.engine.Sound) {r : Request} {x : Rejection}
    (hx : (t.engine.step r).2 = .error x) :
    t.Follows now r { t with engine := t.engine.after r } [] := by
  have hno : ¬ t.engine.Accepts r := Engine.not_accepts_iff.mpr ⟨x, hx⟩
  have hsame := sound.after_of_refused hno
  refine ⟨rfl, ?_, ?_⟩
  · rw [Engine.timerWork_of_refused hno]
    rfl
  · rw [Engine.reportOf_of_refused hno,
      Engine.switchNotices_of_same (congrArg Engine.current hsame)]
    rfl

theorem follows_finish {r : Request} {report : StepReport} {α : Type} (reply : α)
    (hok : (t.engine.step r).2 = .ok report) {timers : Table Int ArmedTimer}
    (htimers : timers = (t.engine.spent r).foldl (Effect.setTimer now) t.timers)
    (first : List Notice) (hfirst : first = t.engine.switchNotices r) :
    t.Follows now r
      (finish { t with engine := t.engine.after r, timers := timers } now kernel first report
        reply).task
      (finish { t with engine := t.engine.after r, timers := timers } now kernel first report
        reply).notices := by
  have htask := performAll_fst now report.effects
    { t with engine := t.engine.after r, timers := timers } kernel
  unfold finish
  simp only
  rw [htask]
  refine ⟨rfl, ?_, ?_⟩
  · rw [Engine.timerWork_of_ok hok, List.foldl_append, ← htimers]
    exact (foldl_setTimer_timers now report.effects timers).symm
  · rw [Engine.reportOf_of_ok hok, hfirst]

theorem update_follows (sound : t.engine.Sound) (now : Nat) (kernel : κ) (ev : Event) :
    t.Follows now (.event ev) (t.update now kernel ev).task (t.update now kernel ev).notices := by
  unfold update
  cases hs : t.engine.update ev with
  | mk engine outcome =>
    have hafter : t.engine.after (.event ev) = engine := congrArg Prod.fst hs
    have hout : (t.engine.step (.event ev)).2 = outcome := congrArg Prod.snd hs
    cases outcome with
    | error x =>
      rw [← hafter]
      exact follows_refused sound hout
    | ok report =>
      simp only
      rw [← hafter]
      refine follows_finish true hout rfl _ ?_
      by_cases hr : ev.reason = .osAccountChanged
      · have hsw : (t.engine.switchTo (accountOf ev.targetUid)).2 = .ok report := by
          rw [← Engine.update_of_switch hr, hs]
        have hcur : (t.engine.after (.event ev)).current =
            (t.engine.switchTo (accountOf ev.targetUid)).1.current := by
          rw [← Engine.update_of_switch hr]
          rfl
        rw [if_pos hr, Engine.switchNotices_of_switched hsw hcur, hcur, Engine.switchTo_current]
        rfl
      · have hcur : (t.engine.after (.event ev)).current = t.engine.current :=
          (Engine.update_terms hr).current
        rw [if_neg hr, Engine.switchNotices_of_same hcur]

theorem switchTo_follows (sound : t.engine.Sound) (now : Nat) (kernel : κ) (account : Int) :
    t.Follows now (.switchTo account) (t.switchTo now kernel account).task
      (t.switchTo now kernel account).notices := by
  unfold switchTo
  cases hs : t.engine.switchTo account with
  | mk engine outcome =>
    have hafter : t.engine.after (.switchTo account) = engine := congrArg Prod.fst hs
    have hout : (t.engine.step (.switchTo account)).2 = outcome := congrArg Prod.snd hs
    cases outcome with
    | error x =>
      rw [← hafter]
      exact follows_refused sound hout
    | ok report =>
      simp only
      rw [← hafter]
      exact follows_finish true hout rfl _ (Engine.switchNotices_of_switched hout rfl).symm

theorem timerFired_follows (sound : t.engine.Sound) (now : Nat) (kernel : κ) (pid : Int)
    (token : Nat) :
    t.Follows now (.expireBoost pid token) (t.timerFired now kernel pid token).task
      (t.timerFired now kernel pid token).notices := by
  unfold timerFired
  cases hs : t.engine.expireBoost pid token with
  | mk engine outcome =>
    have hafter : t.engine.after (.expireBoost pid token) = engine := congrArg Prod.fst hs
    have hout : (t.engine.step (.expireBoost pid token)).2 = outcome := congrArg Prod.snd hs
    cases outcome with
    | error x =>
      rw [← hafter]
      exact follows_refused sound hout
    | ok report =>
      have hspent : t.engine.spent (.expireBoost pid token) = [.cancelTimer pid] := by
        simp only [Engine.spent, hs]
      have hsame := Engine.switchNotices_of_same (r := .expireBoost pid token)
        (Engine.expireBoost_terms t.engine pid token).current
      rw [← hafter]
      exact follows_finish () hout (by rw [hspent]; rfl) [] hsame.symm

theorem retain_follows (t : PriorityTask) (now : Nat) (kernel : κ) (live : List Int) :
    t.Follows now (.retain live) (t.retain now kernel live).task
      (t.retain now kernel live).notices := by
  have hcur : (t.engine.after (.retain live)).current = t.engine.current :=
    (Engine.foldl_dropProcess_terms _ (t.engine, {})).current
  exact follows_finish _ rfl rfl [] (Engine.switchNotices_of_same hcur).symm

theorem noteKilled_follows (t : PriorityTask) (now : Nat) (uid : Int) :
    t.Follows now (.noteKilled uid) (t.noteKilled uid).1 [] := by
  have hcur : (t.engine.after (.noteKilled uid)).current = t.engine.current :=
    (Engine.noteKilled_terms t.engine uid).current
  refine ⟨rfl, rfl, ?_⟩
  rw [Engine.switchNotices_of_same hcur]
  rfl

theorem handle_follows (sound : t.engine.Sound) (now : Nat) (kernel : κ) (r : Request) :
    t.Follows now r (t.handle now kernel (.work r)).task (t.handle now kernel (.work r)).notices := by
  cases r with
  | event ev => exact update_follows sound now kernel ev
  | switchTo account => exact switchTo_follows sound now kernel account
  | expireBoost pid token => exact timerFired_follows sound now kernel pid token
  | noteKilled uid => exact t.noteKilled_follows now uid
  | retain live => exact t.retain_follows now kernel live

end PriorityTask

end MemoryArbiter
