import MemoryArbiter.Proofs.Arbiter.Serving

/-! # The clock moves on

While the clock moves, the alarms that were listed beforehand ring in the order of their times.  A
timer that is still there when its alarm rings fires then and not at any other time, and no alarm is
missing, so that nothing is due when the clock has arrived.
-/

namespace MemoryArbiter

namespace Periodic

variable {α : Type} {p : Periodic α} {now limit n : Nat}

/-- `p` is not overdue, and makes headway. -/
def Ahead (p : Periodic α) (now : Nat) : Prop := 0 < p.period ∧ now ≤ p.next

theorem mem_times (h : n ∈ p.times limit) : p.next ≤ n ∧ n ≤ limit := by
  unfold times at h
  split at h
  · cases h
  · next hle =>
    obtain ⟨i, hi, rfl⟩ := List.mem_map.mp h
    have hcount : i ≤ (limit - p.next) / p.period := by
      have hlt := List.mem_range.mp hi
      omega
    have hspan := Nat.le_trans (Nat.mul_le_mul_right p.period hcount) (Nat.div_mul_le_self _ _)
    omega

theorem Ahead.after (h : p.Ahead now) (limit : Nat) : (p.after limit).Ahead limit := by
  refine ⟨h.1, ?_⟩
  unfold Periodic.after times
  split
  · next hlt =>
    simp only [List.length_nil]
    omega
  · simp only [List.length_map, List.length_range]
    have hspan := Nat.lt_mul_div_succ (limit - p.next) h.1
    rw [Nat.mul_comm] at hspan
    omega

end Periodic

namespace PriorityTask

variable {t : PriorityTask} {pid : Int} {timer : ArmedTimer}

theorem fire?_of_unfired (ht : t.timers.get? pid = some timer) (hno : timer.fired = false) :
    t.fire? pid timer.token =
      some { t with timers := t.timers.insert pid { timer with fired := true } } := by
  unfold fire?
  simp only [ht, hno, and_self, if_true]

theorem mem_dueTimers {limit d : Nat} {alarm : Alarm} :
    (d, alarm) ∈ t.dueTimers limit ↔ ∃ pid timer, t.timers.get? pid = some timer ∧
      timer.fired = false ∧ timer.due ≤ limit ∧ d = timer.due ∧ alarm = .boost pid timer.token := by
  unfold dueTimers
  rw [List.mem_map]
  constructor
  · rintro ⟨⟨pid, timer⟩, hmem, heq⟩
    obtain ⟨hentry, hdue⟩ := List.mem_filter.mp hmem
    obtain ⟨rfl, rfl⟩ := Prod.mk.inj heq
    have hget := Table.mem_entries.mp hentry
    simp only [Bool.and_eq_true, Bool.not_eq_true', decide_eq_true_eq] at hdue
    exact ⟨pid, timer, hget, hdue.1, hdue.2, rfl, rfl⟩
  · rintro ⟨pid, timer, hget, hno, hdue, rfl, rfl⟩
    refine ⟨(pid, timer), List.mem_filter.mpr ⟨Table.mem_entries.mpr hget, ?_⟩, rfl⟩
    simp [hno, hdue]

end PriorityTask

namespace Arbiter

variable {κ : Type} [Kernel κ] {settings : Settings} {a b : Arbiter κ} {trace : Trace}
  {since limit d : Nat} {timers : Table Int ArmedTimer} {alarm : Alarm} {rest : List (Nat × Alarm)}

/-- Monitors and sweeps are not overdue. -/
structure Ready (a : Arbiter κ) : Prop where
  monitors : ∀ p ∈ a.monitors, p.Ahead a.now
  sweeps : ∀ p ∈ a.sweeps, p.Ahead a.now

omit [Kernel κ] in
theorem mem_alarms {x : Nat × Alarm} : x ∈ a.alarms limit ↔
    (∃ t, a.priority = some t ∧ x ∈ t.dueTimers limit) ∨
    (∃ p ∈ a.monitors, ∃ n ∈ p.times limit, x = (n, .sample p.action)) ∨
    ∃ p ∈ a.sweeps, ∃ n ∈ p.times limit, x = (n, .sweep) := by
  unfold alarms
  simp only [List.mem_mergeSort, List.mem_append, List.mem_flatMap, List.mem_map, or_assoc]
  refine or_congr ?_ (or_congr ?_ ?_)
  · cases a.priority <;> simp
  · simp only [eq_comm]
  · simp only [eq_comm]

omit [Kernel κ] in
theorem alarms_sorted (a : Arbiter κ) (limit : Nat) :
    (a.alarms limit).Pairwise fun x y => x.1 ≤ y.1 := by
  refine (List.pairwise_mergeSort ?_ ?_ _).imp fun h => ?_
  · intro x y z hxy hyz
    simp only [decide_eq_true_eq] at hxy hyz ⊢
    omega
  · intro x y
    simp only [Bool.or_eq_true, decide_eq_true_eq]
    omega
  · simpa using h

omit [Kernel κ] in
theorem alarms_le {x : Nat × Alarm} (h : x ∈ a.alarms limit) : x.1 ≤ limit := by
  rcases mem_alarms.mp h with ⟨t, -, ht⟩ | ⟨p, -, n, hn, rfl⟩ | ⟨p, -, n, hn, rfl⟩
  · obtain ⟨pid, timer, -, -, hdue, heq, -⟩ := PriorityTask.mem_dueTimers.mp ht
    rw [heq]
    exact hdue
  · exact (Periodic.mem_times hn).2
  · exact (Periodic.mem_times hn).2

omit [Kernel κ] in
theorem Ready.le_alarms (h : a.Ready)
    (hdue : ∀ t, a.priority = some t → ∀ pid timer, t.timers.get? pid = some timer → a.now ≤ timer.due)
    {x : Nat × Alarm} (hx : x ∈ a.alarms limit) : a.now ≤ x.1 := by
  rcases mem_alarms.mp hx with ⟨t, ht, hmem⟩ | ⟨p, hp, n, hn, rfl⟩ | ⟨p, hp, n, hn, rfl⟩
  · obtain ⟨pid, timer, hget, -, -, heq, -⟩ := PriorityTask.mem_dueTimers.mp hmem
    rw [heq]
    exact hdue t ht pid timer hget
  · exact Nat.le_trans (h.monitors p hp).2 (Periodic.mem_times hn).1
  · exact Nat.le_trans (h.sweeps p hp).2 (Periodic.mem_times hn).1

/-! ### One alarm -/

/-- The clock of `a` is on its way to `limit`, with the alarms `rest` still to ring; the timers were
`timers` when it set out. -/
structure Advancing (settings : Settings) (trace : Trace) (since : Nat)
    (timers : Table Int ArmedTimer) (limit : Nat) (a : Arbiter κ) (rest : List (Nat × Alarm)) :
    Prop where
  task : ∃ t, a.priority = some t ∧ Serving κ settings trace since timers a.now t ∧
    ∀ pid timer, t.timers.get? pid = some timer → timer.due ≤ limit →
      (timer.due, Alarm.boost pid timer.token) ∈ rest
  now_le : a.now ≤ limit
  sorted : rest.Pairwise fun x y => x.1 ≤ y.1
  bounds : ∀ x ∈ rest, a.now ≤ x.1 ∧ x.1 ≤ limit
  meant : ∀ d pid token timer, (d, Alarm.boost pid token) ∈ rest →
    timers.get? pid = some timer → timer.due = d

/-- The clock is put to the next alarm: nothing was due before it. -/
theorem Advancing.atAlarm (h : Advancing settings trace since timers limit a ((d, alarm) :: rest)) :
    ∃ t, a.priority = some t ∧ Serving κ settings trace since timers d t ∧
      ∀ pid timer, t.timers.get? pid = some timer → timer.due ≤ limit →
        (timer.due, Alarm.boost pid timer.token) ∈ (d, alarm) :: rest := by
  obtain ⟨t, ht, hserving, hlisted⟩ := h.task
  obtain ⟨hle, hlimit⟩ := h.bounds (d, alarm) (List.mem_cons_self ..)
  refine ⟨t, ht, hserving.wait hle ?_, hlisted⟩
  intro pid timer htimer
  by_cases hdue : timer.due ≤ limit
  · rcases List.mem_cons.mp (hlisted pid timer htimer hdue) with heq | hmem
    · exact Nat.le_of_eq (congrArg Prod.fst heq).symm
    · exact (List.pairwise_cons.mp h.sorted).1 _ hmem
  · simp only at hlimit
    omega

theorem Advancing.rung (h : Advancing settings trace since timers limit a ((d, alarm) :: rest))
    (hnow : b.now = d)
    (htask : ∃ t, b.priority = some t ∧ Serving κ settings trace since timers d t ∧
      ∀ pid timer, t.timers.get? pid = some timer → timer.due ≤ limit →
        (timer.due, Alarm.boost pid timer.token) ∈ rest) :
    Advancing settings trace since timers limit b rest := by
  obtain ⟨hfirst, hsorted⟩ := List.pairwise_cons.mp h.sorted
  obtain ⟨-, hlimit⟩ := h.bounds (d, alarm) (List.mem_cons_self ..)
  refine ⟨?_, ?_, hsorted, ?_, ?_⟩
  · rw [hnow]
    exact htask
  · rw [hnow]
    exact hlimit
  · intro x hx
    rw [hnow]
    exact ⟨hfirst x hx, (h.bounds x (List.mem_cons_of_mem _ hx)).2⟩
  · intro d' pid token timer hmem
    exact h.meant d' pid token timer (List.mem_cons_of_mem _ hmem)

theorem Serves.shrinks (h : a.Serves settings b) {t : PriorityTask} (ht : a.priority = some t)
    (hserving : Serving κ settings trace since timers a.now t) :
    ∃ t', b.priority = some t' ∧ Serving κ settings trace since timers a.now t' ∧
      ∀ pid timer, t'.timers.get? pid = some timer → t.timers.get? pid = some timer := by
  obtain ⟨t', ht', hserving'⟩ := h.task trace since timers t ht hserving
  obtain ⟨more, -, hclocked⟩ := hserving.clocked
  obtain ⟨t'', ht'', hfrom⟩ := h.task _ _ _ t ht (Serving.start hclocked)
  obtain rfl := Option.some.inj (ht'.symm.trans ht'')
  exact ⟨t', ht', hserving', hfrom.shrunk⟩

theorem Advancing.serves (h : Advancing settings trace since timers limit a ((d, alarm) :: rest))
    (hother : ∀ pid token, alarm ≠ .boost pid token)
    (hserves : { a with now := d }.Serves settings b) :
    Advancing settings trace since timers limit b rest := by
  obtain ⟨t, ht, hserving, hlisted⟩ := h.atAlarm
  obtain ⟨t', ht', hserving', hshrunk⟩ := hserves.shrinks ht hserving
  refine h.rung hserves.now ⟨t', ht', hserving', ?_⟩
  intro pid timer htimer hdue
  rcases List.mem_cons.mp (hlisted pid timer (hshrunk pid timer htimer) hdue) with heq | hmem
  · exact absurd (congrArg Prod.snd heq).symm (hother pid timer.token)
  · exact hmem

theorem Advancing.boost {pid : Int} {token : Nat}
    (h : Advancing settings trace since timers limit a ((d, .boost pid token) :: rest)) :
    Advancing settings trace since timers limit ({ a with now := d }.ring (.boost pid token)) rest := by
  obtain ⟨t, ht, hserving, hlisted⟩ := h.atAlarm
  have hfire : ({ a with now := d } : Arbiter κ).priority.bind (fun t => t.fire? pid token) =
      t.fire? pid token := by
    show a.priority.bind _ = _
    rw [ht]
    rfl
  unfold ring
  simp only [hfire]
  cases hf : t.fire? pid token with
  | none =>
    refine h.rung rfl ⟨t, ht, hserving, ?_⟩
    intro q timer htimer hdue
    rcases List.mem_cons.mp (hlisted q timer htimer hdue) with heq | hmem
    · -- the timer would have fired
      obtain ⟨rfl, rfl⟩ := Alarm.boost.inj (congrArg Prod.snd heq)
      have hunfired := hserving.unfired htimer
      rw [PriorityTask.fire?_of_unfired htimer hunfired] at hf
      cases hf
    · exact hmem
  | some fired =>
    obtain ⟨timer, htimer, rfl, -, -⟩ := PriorityTask.fire?_eq_some hf
    have hdue : timer.due = d :=
      h.meant d pid timer.token timer (List.mem_cons_self ..) (hserving.shrunk pid timer htimer)
    obtain ⟨hafter, hothers⟩ := hserving.ring htimer (Nat.le_of_eq hdue) hf a.kernel
    refine h.rung ?_ ⟨_, call_priority rfl _, hafter, ?_⟩
    · exact (call_rest _ _).1
    · intro q other hq hle
      obtain ⟨hne, hold⟩ := hothers q other hq
      rcases List.mem_cons.mp (hlisted q other hold hle) with heq | hmem
      · exact absurd (Alarm.boost.inj (congrArg Prod.snd heq)).1 hne
      · exact hmem

theorem Advancing.ring (h : Advancing settings trace since timers limit a ((d, alarm) :: rest)) :
    Advancing settings trace since timers limit ({ a with now := d }.ring alarm) rest := by
  cases alarm with
  | boost pid token => exact h.boost
  | sample m => exact h.serves (fun _ _ hb => nomatch hb) ((composed_serves settings).watch _ m)
  | sweep => exact h.serves (fun _ _ hb => nomatch hb) ((composed_serves settings).sweep _)

/-! ### All alarms -/

theorem Advancing.foldl_ring (alarms : List (Nat × Alarm))
    (h : Advancing settings trace since timers limit a alarms) :
    Advancing settings trace since timers limit
      (alarms.foldl (fun a alarm => { a with now := alarm.1 }.ring alarm.2) a) [] := by
  induction alarms generalizing a with
  | nil => exact h
  | cons x alarms ih => exact ih h.ring

/-- When the clock has moved on by `ms`, all that has been asked of the task in between is internal,
and no timer is due any more. -/
theorem Ready.advance (h : a.Ready) (ms : Nat) {t : PriorityTask} (ht : a.priority = some t)
    (hclocked : PriorityTask.Clocked κ settings a.now t [] trace) :
    ∃ t', (a.advance ms).priority = some t' ∧
      Serving κ settings trace a.now t.timers (a.now + ms) t' ∧
      ∀ pid timer, t'.timers.get? pid = some timer → a.now + ms < timer.due := by
  have hstart := Serving.start hclocked
  have hdue : ∀ t, a.priority = some t → ∀ pid timer, t.timers.get? pid = some timer →
      a.now ≤ timer.due := by
    intro t' ht' pid timer htimer
    obtain rfl := Option.some.inj (ht.symm.trans ht')
    exact hclocked.onTime.due_le htimer
  have hadvancing : Advancing settings trace a.now t.timers (a.now + ms) a (a.alarms (a.now + ms)) := by
    refine ⟨⟨t, ht, hstart, ?_⟩, Nat.le_add_right _ _, alarms_sorted a _, ?_, ?_⟩
    · intro pid timer htimer hle
      refine mem_alarms.mpr (Or.inl ⟨t, ht, PriorityTask.mem_dueTimers.mpr ?_⟩)
      exact ⟨pid, timer, htimer, hstart.unfired htimer, hle, rfl, rfl⟩
    · exact fun x hx => ⟨h.le_alarms hdue hx, alarms_le hx⟩
    · intro d pid token timer hmem htimer
      rcases mem_alarms.mp hmem with ⟨t', ht', hdt⟩ | ⟨p, -, n, -, heq⟩ | ⟨p, -, n, -, heq⟩
      · obtain rfl := Option.some.inj (ht.symm.trans ht')
        obtain ⟨pid', timer', htimer', -, -, rfl, heq⟩ := PriorityTask.mem_dueTimers.mp hdt
        obtain ⟨rfl, -⟩ := Alarm.boost.inj heq
        rw [Option.some.inj (htimer.symm.trans htimer')]
      · cases heq
      · cases heq
  have hdone := hadvancing.foldl_ring
  obtain ⟨t', ht', hserving, hlisted⟩ := hdone.task
  have hlater : ∀ pid timer, t'.timers.get? pid = some timer → a.now + ms < timer.due := by
    intro pid timer htimer
    by_cases hle : timer.due ≤ a.now + ms
    · exact nomatch hlisted pid timer htimer hle
    · omega
  exact ⟨t', ht', hserving.wait hdone.now_le fun pid timer htimer =>
    Nat.le_of_lt (hlater pid timer htimer), hlater⟩

end Arbiter

end MemoryArbiter
