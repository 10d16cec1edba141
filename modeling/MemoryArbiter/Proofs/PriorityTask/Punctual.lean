import MemoryArbiter.Proofs.PriorityTask.Clocked

/-! # Boosts are taken back in time

In a run on the clock, a boost that nothing supersedes is taken back exactly one grace period after
it was put up.  Until then it waits, and once it is superseded it is never taken back.
-/

namespace MemoryArbiter

namespace Engine

variable {e : Engine} {pid : Int} {b : Boost}

theorem Sound.waits_or_ends (trace : Trace) (h : e.Sound) (hb : e.boost? pid = some b) :
    (e.through trace).boost? pid = some b ∨
      ∃ (sofar : Trace) (n : Nat) (r : Request) (rest : Trace), trace = sofar ++ (n, r) :: rest ∧
        (e.through sofar).boost? pid = some b ∧ (e.through sofar).Ends pid r := by
  induction trace generalizing e with
  | nil => exact Or.inl hb
  | cons x trace ih =>
    obtain ⟨n, r⟩ := x
    by_cases hends : e.Ends pid r
    · exact Or.inr ⟨[], n, r, trace, rfl, hb, hends⟩
    · have hwaits : e.boost? pid ≠ none := by
        rw [hb]
        exact fun h => nomatch h
      have hkept := boost?_congr ((h.turnover r).kept hwaits hends)
      rcases ih (h.after r) (hkept.trans hb) with hstill | ⟨sofar, n', r', rest, rfl, hlast, hend⟩
      · exact Or.inl hstill
      · exact Or.inr ⟨(n, r) :: sofar, n', r', rest, rfl, hlast, hend⟩

end Engine

namespace Trace

variable {trace before between : Trace} {settings : Settings} {pid pid' : Int} {token a a' : Nat}
  {r : Request}

theorem engine_cons (before : Trace) (a : Nat) (r : Request) (between : Trace) (settings : Settings) :
    engine (before ++ (a, r) :: between) settings =
      ((before.engine settings).after r).through between :=
  engine_append before ((a, r) :: between) settings

theorem arming_token (harm : (pid, token) ∈ ((before.engine settings).reportOf r).armings) :
    token = (before.engine settings).lastToken + 1 ∧
      ((before.engine settings).after r).lastToken = token ∧
      ∃ b, ((before.engine settings).after r).boost? pid = some b ∧ b.token = token := by
  exact (engine_sound before settings).arming harm

theorem arming_lastToken (harm : (pid, token) ∈ ((before.engine settings).reportOf r).armings)
    (a : Nat) (between : Trace) :
    token ≤ (engine (before ++ (a, r) :: between) settings).lastToken := by
  obtain ⟨-, hlast, -⟩ := arming_token harm
  have hsound := (engine_sound before settings).after r
  rw [engine_cons, ← hlast]
  exact hsound.lastToken_le_foldl (between.map Prod.snd)

theorem ArmedAt.unique (h : trace.ArmedAt settings pid token a)
    (h' : trace.ArmedAt settings pid' token a') : a = a' := by
  -- the later of two armings would have taken a larger token
  have hlater : ∀ {before c : Trace} {pid pid' : Int} {r r' : Request} {a : Nat},
      (pid, token) ∈ ((before.engine settings).reportOf r).armings →
      (pid', token) ∈ ((engine (before ++ (a, r) :: c) settings).reportOf r').armings → False := by
    intro before c pid pid' r r' a harm harm'
    have hle := arming_lastToken harm a c
    obtain ⟨htoken, -⟩ := arming_token harm'
    omega
  obtain ⟨before, r, between, rfl, harm⟩ := h
  obtain ⟨before', r', between', hsplit, harm'⟩ := h'
  rcases List.append_eq_append_iff.mp hsplit with ⟨c, rfl, hc⟩ | ⟨c, rfl, hc⟩
  · cases c with
    | nil => exact congrArg Prod.fst (List.cons.inj hc).1
    | cons x c =>
      obtain ⟨rfl, -⟩ := List.cons.inj hc
      exact (hlater harm harm').elim
  · cases c with
    | nil => exact (congrArg Prod.fst (List.cons.inj hc).1).symm
    | cons x c =>
      obtain ⟨rfl, -⟩ := List.cons.inj hc
      exact (hlater harm' harm).elim

/-- In the requests `between`, from the engine `e` on, the boost of `pid` under `token` is taken back
at the time `b`, after `sofar`. -/
def RevertsAt (between : Trace) (e : Engine) (pid : Int) (token b : Nat) (sofar : Trace) : Prop :=
  (∃ rest, between = sofar ++ (b, .expireBoost pid token) :: rest) ∧
    (e.through sofar).Accepts (.expireBoost pid token)

/-- What becomes of the boost of `pid` under `token`, which is armed at the time `a` with the engine
`e` as the result, when the requests `between` follow.  It is the time `n`; all timers that are due
before `limit` have been taken up. -/
structure Punctual (settings : Settings) (n limit : Nat) (e : Engine) (a : Nat) (between : Trace)
    (pid : Int) (token : Nat) : Prop where
  waits : e.Undisturbed pid (between.map Prod.snd) → n < a + settings.gracePeriod →
    ∃ b, (e.through between).boost? pid = some b ∧ b.token = token
  reverts : e.Undisturbed pid (between.map Prod.snd) → a + settings.gracePeriod < limit →
    ∃ sofar, between.RevertsAt e pid token (a + settings.gracePeriod) sofar
  /-- It is not taken back at any other time, and not after it was superseded. -/
  only : ∀ b sofar, between.RevertsAt e pid token b sofar →
    b = a + settings.gracePeriod ∧ e.Undisturbed pid (sofar.map Prod.snd)

end Trace

namespace PriorityTask

variable {settings : Settings} {n limit : Nat} {t : PriorityTask} {mail : List (Int × Nat)}
  {trace before between : Trace} {a : Nat} {r : Request} {pid : Int} {token : Nat}

theorem OnTime.due_le (h : OnTime settings n t mail trace) {timer : ArmedTimer}
    (hq : t.timers.get? pid = some timer) : n ≤ timer.due := by
  cases hfired : timer.fired with
  | false => exact h.waiting pid timer hq hfired
  | true =>
    obtain ⟨a, harmed, hdue⟩ := h.armed pid timer hq
    obtain ⟨a', harmed', hn⟩ := h.mail pid timer.token (h.fired pid timer hq hfired)
    have ha := harmed.unique harmed'
    omega

theorem OnTime.due_eq (h : OnTime settings n t mail trace) {b : Boost}
    (hb : t.engine.boost? pid = some b) (harmed : trace.ArmedAt settings pid b.token a) :
    ∃ timer, t.timers.get? pid = some timer ∧ timer.due = a + settings.gracePeriod := by
  obtain ⟨timer, htimer, hsame⟩ := h.matched.timed.timer_of_boost hb
  obtain ⟨a', harmed', hdue⟩ := h.armed pid timer htimer
  rw [hsame] at harmed'
  rw [harmed.unique harmed']
  exact ⟨timer, htimer, hdue⟩

theorem OnTime.served (h : OnTime settings n t mail trace) {b : Boost}
    (hb : t.engine.boost? pid = some b) : ∃ timer, t.timers.get? pid = some timer ∧
      timer.token = b.token ∧ n ≤ timer.due ∧ (timer.fired = true → (pid, b.token) ∈ mail) := by
  obtain ⟨timer, htimer, htoken⟩ := h.matched.timed.timer_of_boost hb
  refine ⟨timer, htimer, htoken, h.due_le htimer, ?_⟩
  rw [← htoken]
  exact h.fired pid timer htimer

theorem OnTime.reverts_only (h : OnTime settings n t mail (before ++ (a, r) :: between))
    (harm : (pid, token) ∈ ((before.engine settings).reportOf r).armings) {b : Nat} {sofar : Trace}
    (hrev : between.RevertsAt ((before.engine settings).after r) pid token b sofar) :
    b = a + settings.gracePeriod ∧
      ((before.engine settings).after r).Undisturbed pid (sofar.map Prod.snd) := by
  obtain ⟨⟨rest, hsplit⟩, hacc⟩ := hrev
  rw [← Trace.engine_cons before a] at hacc
  constructor
  · obtain ⟨a', harmed', hb⟩ := h.expired (before ++ (a, r) :: sofar) b pid token rest
      (by simp [hsplit]) hacc
    have harmed : Trace.ArmedAt (before ++ (a, r) :: sofar) settings pid token a :=
      ⟨before, r, sofar, rfl, harm⟩
    rw [harmed.unique harmed']
    exact hb
  · obtain ⟨-, hlast, -⟩ := Trace.arming_token harm
    obtain ⟨boost, hboost, htoken⟩ := (Trace.engine_tokened _ settings).accepts_iff.mp hacc
    rw [Trace.engine_cons] at hboost
    have hsound := (Trace.engine_sound before settings).after r
    obtain ⟨-, hno⟩ := hsound.held (sofar.map Prod.snd) hboost (by omega)
    exact fun sofar next rest hrest hsup => hno sofar next rest hrest (Or.inl hsup)

/-- Left undisturbed, a boost can only be ended by its own timer. -/
theorem OnTime.waits_or_reverts (h : OnTime settings n t mail (before ++ (a, r) :: between))
    (harm : (pid, token) ∈ ((before.engine settings).reportOf r).armings)
    (hundisturbed : ((before.engine settings).after r).Undisturbed pid (between.map Prod.snd)) :
    (∃ b, t.engine.boost? pid = some b ∧ b.token = token) ∨
      ∃ sofar, between.RevertsAt ((before.engine settings).after r) pid token
        (a + settings.gracePeriod) sofar := by
  have hsound := (Trace.engine_sound before settings).after r
  obtain ⟨-, -, b, hb, htoken⟩ := Trace.arming_token harm
  rcases hsound.waits_or_ends between hb with hstill | ⟨sofar, c, next, rest, hsplit, hlast, hends⟩
  · rw [h.engine, Trace.engine_cons]
    exact Or.inl ⟨b, hstill, htoken⟩
  · rcases hends with hsup | ⟨token', rfl, hacc⟩
    · exact absurd hsup
        (hundisturbed (sofar.map Prod.snd) next (rest.map Prod.snd) (by simp [hsplit]))
    · have htokened := Trace.engine_tokened (before ++ (a, r) :: sofar) settings
      rw [Trace.engine_cons] at htokened
      obtain ⟨b', hb', htoken'⟩ := htokened.accepts_iff.mp hacc
      obtain rfl := Option.some.inj (hlast.symm.trans hb')
      obtain rfl : token = token' := htoken.symm.trans htoken'
      have hrev : between.RevertsAt _ pid token c sofar := ⟨⟨rest, hsplit⟩, hacc⟩
      obtain ⟨rfl, -⟩ := h.reverts_only harm hrev
      exact Or.inr ⟨sofar, hrev⟩

theorem OnTime.punctual (h : OnTime settings n t mail (before ++ (a, r) :: between))
    (harm : (pid, token) ∈ ((before.engine settings).reportOf r).armings)
    (hlimit : ∀ q timer, t.timers.get? q = some timer → limit ≤ timer.due) :
    Trace.Punctual settings n limit ((before.engine settings).after r) a between pid token := by
  have harmed : Trace.ArmedAt (before ++ (a, r) :: between) settings pid token a :=
    ⟨before, r, between, rfl, harm⟩
  refine ⟨?_, ?_, fun b sofar => h.reverts_only harm⟩
  · intro hundisturbed hbefore
    rcases h.waits_or_reverts harm hundisturbed with ⟨b, hb, htoken⟩ | ⟨sofar, ⟨rest, hsplit⟩, -⟩
    · rw [h.engine, Trace.engine_cons] at hb
      exact ⟨b, hb, htoken⟩
    · have hpast := h.past (a + settings.gracePeriod, .expireBoost pid token) (by simp [hsplit])
      simp only at hpast
      omega
  · intro hundisturbed hdue
    rcases h.waits_or_reverts harm hundisturbed with ⟨b, hb, htoken⟩ | hrev
    · obtain ⟨timer, htimer, hat⟩ := h.due_eq hb (htoken.symm ▸ harmed)
      have hle := hlimit pid timer htimer
      omega
    · exact hrev

end PriorityTask

end MemoryArbiter
