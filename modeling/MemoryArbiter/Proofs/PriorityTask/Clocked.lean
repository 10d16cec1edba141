import MemoryArbiter.Arbiter.Clock
import MemoryArbiter.Proofs.PriorityTask.Timers

/-! # Timers on the clock

A timer fires when it is due and sends a request, which waits with the others until the task takes it
up.  The clock stands still as long as a timer is due or such a request waits, so that every boost
that nothing supersedes is taken back one grace period after it was put up, to the millisecond.
-/

namespace MemoryArbiter

/-- The requests that a task has taken up, with their times. -/
abbrev Trace := List (Nat × Request)

def Engine.through (e : Engine) (trace : Trace) : Engine := (trace.map Prod.snd).foldl Engine.after e

namespace Trace

def engine (trace : Trace) (settings : Settings) : Engine := (Engine.new settings).through trace

/-- The timer of `pid` is armed with `token` by a request that is taken up at the time `a`. -/
def ArmedAt (trace : Trace) (settings : Settings) (pid : Int) (token a : Nat) : Prop :=
  ∃ (before : Trace) (r : Request) (between : Trace), trace = before ++ (a, r) :: between ∧
    (pid, token) ∈ ((before.engine settings).reportOf r).armings

variable {trace : Trace} {settings : Settings} {pid : Int} {token a : Nat}

theorem engine_append (trace more : Trace) (settings : Settings) :
    engine (trace ++ more) settings = (trace.engine settings).through more := by
  unfold engine Engine.through
  rw [List.map_append, List.foldl_append]

theorem engine_sound (trace : Trace) (settings : Settings) : (trace.engine settings).Sound :=
  Engine.run_sound settings _

theorem engine_tokened (trace : Trace) (settings : Settings) : (trace.engine settings).Tokened :=
  Engine.run_tokened settings _

theorem ArmedAt.append (h : trace.ArmedAt settings pid token a) (more : Trace) :
    ArmedAt (trace ++ more) settings pid token a := by
  obtain ⟨before, r, between, rfl, harm⟩ := h
  exact ⟨before, r, between ++ more, by simp, harm⟩

theorem split_concat {α : Type} {l sofar rest : List α} {x y : α} (h : l ++ [x] = sofar ++ y :: rest) :
    (sofar = l ∧ y = x) ∨ ∃ rest', l = sofar ++ y :: rest' := by
  rcases List.eq_nil_or_concat rest with rfl | ⟨rest', z, rfl⟩
  · obtain ⟨hl, hx⟩ := List.append_inj' h rfl
    exact Or.inl ⟨hl.symm, (List.cons.inj hx).1.symm⟩
  · have hsplit : l ++ [x] = (sofar ++ y :: rest') ++ [z] := by simpa using h
    exact Or.inr ⟨rest', (List.append_inj' hsplit rfl).1⟩

end Trace

namespace PriorityTask

/-- The task at the time `n`, after the requests of the trace; those of timers that have fired are in
the mail until they are taken up, in any order.  No request of a timer comes from elsewhere. -/
inductive Clocked (κ : Type) [Kernel κ] (settings : Settings) :
    Nat → PriorityTask → List (Int × Nat) → Trace → Prop
  | start (n : Nat) : Clocked κ settings n (start settings) [] []
  | take {n : Nat} {t : PriorityTask} {mail : List (Int × Nat)} {trace : Trace}
      (h : Clocked κ settings n t mail trace) (r : Request)
      (outside : ∀ pid token, r ≠ .expireBoost pid token) (kernel : κ) :
      Clocked κ settings n (t.handle n kernel (.work r)).task mail (trace ++ [(n, r)])
  | fire {n : Nat} {t t' : PriorityTask} {mail : List (Int × Nat)} {trace : Trace}
      (h : Clocked κ settings n t mail trace) {pid : Int} {timer : ArmedTimer}
      (there : t.timers.get? pid = some timer) (due : timer.due ≤ n)
      (fires : t.fire? pid timer.token = some t') :
      Clocked κ settings n t' (mail ++ [(pid, timer.token)]) trace
  | deliver {n : Nat} {t : PriorityTask} {before behind : List (Int × Nat)} {pid : Int} {token : Nat}
      {trace : Trace} (h : Clocked κ settings n t (before ++ (pid, token) :: behind) trace)
      (kernel : κ) :
      Clocked κ settings n (t.handle n kernel (.work (.expireBoost pid token))).task
        (before ++ behind) (trace ++ [(n, .expireBoost pid token)])
  | wait {n : Nat} {t : PriorityTask} {trace : Trace} (h : Clocked κ settings n t [] trace) {m : Nat}
      (le : n ≤ m)
      (still : ∀ pid timer, t.timers.get? pid = some timer → timer.fired = false → m ≤ timer.due) :
      Clocked κ settings m t [] trace

variable {κ : Type} [Kernel κ] {settings : Settings} {n : Nat} {t : PriorityTask}
  {mail : List (Int × Nat)} {trace : Trace}

/-! ### What holds at every moment -/

structure OnTime (settings : Settings) (n : Nat) (t : PriorityTask) (mail : List (Int × Nat))
    (trace : Trace) : Prop where
  engine : t.engine = trace.engine settings
  matched : t.Matched
  past : ∀ x ∈ trace, x.1 ≤ n
  armed : ∀ pid timer, t.timers.get? pid = some timer →
    ∃ a, trace.ArmedAt settings pid timer.token a ∧ timer.due = a + settings.gracePeriod
  waiting : ∀ pid timer, t.timers.get? pid = some timer → timer.fired = false → n ≤ timer.due
  fired : ∀ pid timer, t.timers.get? pid = some timer → timer.fired = true →
    (pid, timer.token) ∈ mail
  mail : ∀ pid token, (pid, token) ∈ mail →
    ∃ a, trace.ArmedAt settings pid token a ∧ n = a + settings.gracePeriod
  expired : ∀ (sofar : Trace) (b : Nat) (pid : Int) (token : Nat) (rest : Trace),
    trace = sofar ++ (b, .expireBoost pid token) :: rest →
    (sofar.engine settings).Accepts (.expireBoost pid token) →
      ∃ a, sofar.ArmedAt settings pid token a ∧ b = a + settings.gracePeriod

theorem onTime_start (settings : Settings) (n : Nat) : OnTime settings n (start settings) [] [] := by
  refine ⟨rfl, matched_start settings, (fun _ h => nomatch h), (fun _ _ h => nomatch h),
    (fun _ _ h => nomatch h), (fun _ _ h => nomatch h), (fun _ _ h => nomatch h), ?_⟩
  intro sofar b pid token rest h
  simp at h

theorem OnTime.timer_cases (h : OnTime settings n t mail trace) (r : Request) (kernel : κ) {q : Int}
    {timer : ArmedTimer} (hq : (t.handle n kernel (.work r)).task.timers.get? q = some timer) :
    (t.timers.get? q = some timer ∧ ¬ t.engine.Ends q r) ∨
      (timer.due = n + settings.gracePeriod ∧ timer.fired = false ∧ settings.gracePeriod ≠ 0 ∧
        (∃ ev, r = .event ev) ∧ (q, timer.token) ∈ (t.engine.reportOf r).armings) := by
  have hsettings : t.engine.settings = settings := by
    rw [h.engine]
    exact Engine.run_settings settings _
  rw [(handle_follows h.matched.sound n kernel r).timers] at hq
  rw [Engine.armings_eq, ← hsettings]
  exact (h.matched.sound.turnover r).timer_cases h.matched.timed hq

/-- The task takes up `r`, which leaves only `mail'` of the mail. -/
theorem OnTime.handle {mail' : List (Int × Nat)} (h : OnTime settings n t mail trace) (r : Request)
    (kernel : κ) (hsub : ∀ x ∈ mail', x ∈ mail)
    (hkept : ∀ q timer, t.timers.get? q = some timer → timer.fired = true →
      ¬ t.engine.Ends q r → (q, timer.token) ∈ mail')
    (hexpiry : ∀ pid token, r = .expireBoost pid token →
      ∃ a, trace.ArmedAt settings pid token a ∧ n = a + settings.gracePeriod) :
    OnTime settings n (t.handle n kernel (.work r)).task mail' (trace ++ [(n, r)]) := by
  have hfollows := handle_follows h.matched.sound n kernel r
  have hnext : Trace.engine (trace ++ [(n, r)]) settings = (trace.engine settings).after r :=
    Trace.engine_append trace [(n, r)] settings
  have hengine : (t.handle n kernel (.work r)).task.engine = Trace.engine (trace ++ [(n, r)]) settings := by
    rw [hfollows.engine, hnext, h.engine]
  refine ⟨hengine, hfollows.matched h.matched, ?_, ?_, ?_, ?_, ?_, ?_⟩
  · intro x hx
    rcases List.mem_append.mp hx with hx | hx
    · exact h.past x hx
    · exact Nat.le_of_eq (congrArg Prod.fst (List.mem_singleton.mp hx))
  · intro q timer hq
    rcases h.timer_cases r kernel hq with ⟨hold, -⟩ | ⟨hdue, -, -, -, harm⟩
    · obtain ⟨a, harmed, hdue⟩ := h.armed q timer hold
      exact ⟨a, harmed.append _, hdue⟩
    · refine ⟨n, ⟨trace, r, [], rfl, ?_⟩, hdue⟩
      rw [← h.engine]
      exact harm
  · intro q timer hq hunfired
    rcases h.timer_cases r kernel hq with ⟨hold, -⟩ | ⟨hdue, -⟩
    · exact h.waiting q timer hold hunfired
    · omega
  · intro q timer hq hfired
    rcases h.timer_cases r kernel hq with ⟨hold, hno⟩ | ⟨-, hunfired, -⟩
    · exact hkept q timer hold hfired hno
    · rw [hunfired] at hfired
      cases hfired
  · intro pid token hmem
    obtain ⟨a, harmed, hn⟩ := h.mail pid token (hsub _ hmem)
    exact ⟨a, harmed.append _, hn⟩
  · intro sofar b pid token rest hsplit hacc
    rcases Trace.split_concat hsplit with ⟨rfl, hlast⟩ | ⟨rest', hinside⟩
    · obtain ⟨rfl, rfl⟩ := Prod.mk.inj hlast
      exact hexpiry pid token rfl
    · exact h.expired sofar b pid token rest' hinside hacc

theorem fire?_eq_some {t t' : PriorityTask} {pid : Int} {token : Nat}
    (h : t.fire? pid token = some t') :
    ∃ timer, t.timers.get? pid = some timer ∧ timer.token = token ∧ timer.fired = false ∧
      t' = { t with timers := t.timers.insert pid { timer with fired := true } } := by
  unfold fire? at h
  split at h
  · next timer hp =>
    split at h
    · next hboth => exact ⟨timer, hp, hboth.1, hboth.2, (Option.some.inj h).symm⟩
    · cases h
  · cases h

theorem OnTime.fire (h : OnTime settings n t mail trace) {t' : PriorityTask} {pid : Int}
    {timer : ArmedTimer} (there : t.timers.get? pid = some timer) (due : timer.due ≤ n)
    (fires : t.fire? pid timer.token = some t') :
    OnTime settings n t' (mail ++ [(pid, timer.token)]) trace := by
  obtain ⟨timer', hget, -, hunfired, rfl⟩ := fire?_eq_some fires
  obtain rfl := Option.some.inj (hget.symm.trans there)
  have hcases : ∀ q (timer : ArmedTimer),
      (t.timers.insert pid { timer' with fired := true }).get? q = some timer →
      (pid = q ∧ timer = { timer' with fired := true }) ∨ pid ≠ q ∧ t.timers.get? q = some timer := by
    intro q timer hq
    rw [Table.get?_insert] at hq
    by_cases hpid : pid = q
    · rw [if_pos hpid] at hq
      exact Or.inl ⟨hpid, (Option.some.inj hq).symm⟩
    · rw [if_neg hpid] at hq
      exact Or.inr ⟨hpid, hq⟩
  obtain ⟨a, harmed, hdue⟩ := h.armed pid timer' there
  have hn : n = a + settings.gracePeriod := by
    have hle := h.waiting pid timer' there hunfired
    omega
  refine ⟨h.engine, ⟨h.matched.sound, h.matched.tokened, ?_⟩, h.past, ?_, ?_, ?_, ?_, h.expired⟩
  · intro q
    rw [← h.matched.timed q]
    show ((t.timers.insert pid { timer' with fired := true }).get? q).map _ = _
    rw [Table.get?_insert]
    by_cases hpid : pid = q
    · rw [if_pos hpid, ← hpid, there]
      rfl
    · rw [if_neg hpid]
  · intro q timer hq
    rcases hcases q timer hq with ⟨rfl, rfl⟩ | ⟨-, hold⟩
    · exact ⟨a, harmed, hdue⟩
    · exact h.armed q timer hold
  · intro q timer hq hno
    rcases hcases q timer hq with ⟨rfl, rfl⟩ | ⟨-, hold⟩
    · cases hno
    · exact h.waiting q timer hold hno
  · intro q timer hq hfired
    rcases hcases q timer hq with ⟨rfl, rfl⟩ | ⟨-, hold⟩
    · exact List.mem_append_right _ (List.mem_singleton_self _)
    · exact List.mem_append_left _ (h.fired q timer hold hfired)
  · intro q token hmem
    rcases List.mem_append.mp hmem with hmem | hmem
    · exact h.mail q token hmem
    · obtain ⟨rfl, rfl⟩ := Prod.mk.inj (List.mem_singleton.mp hmem)
      exact ⟨a, harmed, hn⟩

theorem OnTime.deliver {before behind : List (Int × Nat)} {pid : Int} {token : Nat}
    (h : OnTime settings n t (before ++ (pid, token) :: behind) trace) (kernel : κ) :
    OnTime settings n (t.handle n kernel (.work (.expireBoost pid token))).task (before ++ behind)
      (trace ++ [(n, .expireBoost pid token)]) := by
  refine h.handle _ kernel ?_ ?_ ?_
  · intro x hx
    rcases List.mem_append.mp hx with hx | hx
    · exact List.mem_append_left _ hx
    · exact List.mem_append_right _ (List.mem_cons_of_mem _ hx)
  · -- the request of this very timer would have been accepted
    intro q timer hq hfired hno
    have hne : (q, timer.token) ≠ (pid, token) := by
      intro heq
      obtain ⟨rfl, rfl⟩ := Prod.mk.inj heq
      obtain ⟨b, hb, htoken⟩ := h.matched.timed.boost_of_timer hq
      have hacc := h.matched.tokened.accepts_iff.mpr ⟨b, hb, htoken⟩
      exact hno (Or.inr ⟨timer.token, rfl, hacc⟩)
    rcases List.mem_append.mp (h.fired q timer hq hfired) with hmem | hmem
    · exact List.mem_append_left _ hmem
    · exact List.mem_append_right _ ((List.mem_cons.mp hmem).resolve_left hne)
  · intro q token' heq
    obtain ⟨rfl, rfl⟩ := Request.expireBoost.inj heq
    exact h.mail pid token (List.mem_append_right _ (List.mem_cons_self ..))

theorem OnTime.wait (h : OnTime settings n t [] trace) {m : Nat} (le : n ≤ m)
    (still : ∀ pid timer, t.timers.get? pid = some timer → timer.fired = false → m ≤ timer.due) :
    OnTime settings m t [] trace :=
  ⟨h.engine, h.matched, fun x hx => Nat.le_trans (h.past x hx) le, h.armed, still, h.fired,
    (fun _ _ hmem => nomatch hmem), h.expired⟩

theorem Clocked.onTime (h : Clocked κ settings n t mail trace) : OnTime settings n t mail trace := by
  induction h with
  | start n => exact onTime_start settings n
  | take h r outside kernel ih =>
    exact ih.handle r kernel (fun x hx => hx) (fun q timer hq hfired _ => ih.fired q timer hq hfired)
      fun pid token hr => absurd hr (outside pid token)
  | fire h there due fires ih => exact ih.fire there due fires
  | deliver h kernel ih => exact ih.deliver kernel
  | wait h le still ih => exact ih.wait le still

end PriorityTask

end MemoryArbiter
