import MemoryArbiter.Proofs.Killer.PassService

/-! # No signal goes unheard

Signals are dropped while one is under way, and where the queue is full.  Because the task lowers the
flag before the pass and not after it, a caller that returns still has a pass ahead of it, which
looks at the memory as it is then, also if the signal came in the middle of another pass.
-/

namespace MemoryArbiter

namespace PassService

/-- With the act `a` a caller is through with its signal: it has found the flag up, or has offered. -/
def Returns (s : PassService) : PassAct → Prop
  | .claim caller => caller ∉ s.claimants ∧ s.queue.signalled = true
  | .offer caller => caller ∈ s.claimants
  | _ => False

instance (s : PassService) (a : PassAct) : Decidable (s.Returns a) := by
  cases a <;> unfold Returns <;> infer_instance

/-- A pass has yet to start: a request for it is queued, or with a caller, or taken up. -/
def Pending (s : PassService) : Prop :=
  s.queue.waiting ≠ [] ∨ s.claimants ≠ [] ∨ s.task = .lowered ∨ ∃ r, s.task = .received r

/-- The act that the service waits for, of the task or of a caller that holds the flag. -/
def awaited (s : PassService) : PassAct :=
  match s.task with
  | .received .signal => .lower
  | .received .report | .lowered => .start
  | .passing => .finish
  | .idle => if s.queue.waiting = [] then .offer (s.claimants.headD 0) else .receive

/-- How many awaited acts it takes at most until the next pass starts. -/
def distance (s : PassService) : Nat :=
  let offers := if s.queue.waiting = [] then 1 else 0
  match s.task with
  | .received .report | .lowered => 1
  | .received .signal => 2
  | .idle => 3 + offers
  | .passing => 4 + offers

/-- How many of `acts` are awaited when their turn comes. -/
def answered (s : PassService) : List PassAct → Nat
  | [] => 0
  | a :: acts => (s.perform a).answered acts + if a = s.awaited then 1 else 0

variable {s s' : PassService} {a : PassAct}

/-! ### A pass that has yet to start will start -/

theorem Moves.started_le (m : s.Moves a s') : s.started ≤ s'.started := by
  cases m <;> simp

theorem Moves.pending (m : s.Moves a s') (h : s.Balanced) (hp : s.Pending) :
    s'.Pending ∨ s.started < s'.started := by
  have hroom := h.room
  cases m with
  | stay => exact .inl hp
  | raise caller down => exact .inl (.inr (.inl (List.cons_ne_nil _ _)))
  | drop caller held full =>
    refine .inl (.inl fun hempty => ?_)
    rw [show s.queue.waiting = [] from hempty] at full
    simp at full
    omega
  | queue caller held room => exact .inl (.inl (by simp))
  | request room => exact .inl (.inl (by simp))
  | receive r rest idle waiting => exact .inl (.inr (.inr (.inr ⟨r, rfl⟩)))
  | lower signal => exact .inl (.inr (.inr (.inl rfl)))
  | start ready => exact .inr (Nat.lt_succ_self _)
  | finish passing =>
    unfold Pending at hp ⊢
    simpa [passing] using hp

theorem distance_bounds (s : PassService) : 0 < s.distance ∧ s.distance ≤ 5 := by
  unfold distance
  cases s.task with
  | received r => cases r <;> simp
  | lowered => simp
  | idle | passing =>
    simp only
    split <;> omega

theorem distance_of_waiting {q : PassQueue} (hq : q.waiting ≠ []) (claimants : List Nat) :
    { s with queue := q, claimants := claimants }.distance ≤ s.distance := by
  unfold distance
  simp only [if_neg hq]
  cases s.task with
  | received r => cases r <;> simp
  | _ => simp

theorem Moves.distance_le (m : s.Moves a s') : s'.distance ≤ s.distance ∨ s.started < s'.started := by
  cases m with
  | stay => exact .inl (Nat.le_refl _)
  | raise caller down => exact .inl (Nat.le_refl _)
  | drop caller held full => exact .inl (Nat.le_refl _)
  | queue caller held room => exact .inl (distance_of_waiting (by simp) _)
  | request room => exact .inl (distance_of_waiting (by simp) _)
  | receive r rest idle waiting =>
    refine .inl ?_
    cases r <;> simp [distance, idle, waiting]
  | lower signal => exact .inl (by simp [distance, signal])
  | start ready => exact .inr (Nat.lt_succ_self _)
  | finish passing =>
    refine .inl ?_
    simp only [distance, passing]
    omega

/-- The awaited act is possible, and brings the next pass nearer. -/
theorem Balanced.distance_lt (h : s.Balanced) (hp : s.Pending) :
    (s.perform s.awaited).distance < s.distance ∨ s.started < (s.perform s.awaited).started := by
  have hroom := h.room
  cases ht : s.task with
  | received r => cases r <;> simp [awaited, PassService.perform, lower, start, distance, ht]
  | lowered => simp [awaited, PassService.perform, start, distance, ht]
  | passing => simp [awaited, PassService.perform, finish, distance, ht]
  | idle =>
    cases hw : s.queue.waiting with
    | nil =>
      have hnotfull : ¬ s.queue.capacity = 0 := by omega
      cases hc : s.claimants with
      | nil => simp [Pending, ht, hw, hc] at hp
      | cons c cs =>
        simp [awaited, PassService.perform, offer, PassQueue.offer, PassQueue.isFull, distance, ht, hw, hc,
          hnotfull]
    | cons r rest =>
      cases r <;> simp [awaited, PassService.perform, receive, PassQueue.receive?, distance, ht, hw]

theorem started_le_performAll (s : PassService) (acts : List PassAct) :
    s.started ≤ (s.performAll acts).started := by
  induction acts generalizing s with
  | nil => exact Nat.le_refl _
  | cons a acts ih => exact Nat.le_trans (s.moves a).started_le (ih (s.perform a))

theorem Balanced.pending_performAll (h : s.Balanced) (hp : s.Pending) (acts : List PassAct) :
    (s.performAll acts).Pending ∨ s.started < (s.performAll acts).started := by
  induction acts generalizing s with
  | nil => exact .inl hp
  | cons a acts ih =>
    rcases (s.moves a).pending h hp with hp' | hlt
    · exact (ih (h.perform a) hp').imp_right (Nat.lt_of_le_of_lt (s.moves a).started_le)
    · exact .inr (Nat.lt_of_lt_of_le hlt ((s.perform a).started_le_performAll acts))

/-- Whatever else is done in between, a pass starts after few of the acts that are awaited. -/
theorem Balanced.lt_started (h : s.Balanced) (hp : s.Pending) (acts : List PassAct)
    (hmany : s.distance ≤ s.answered acts) : s.started < (s.performAll acts).started := by
  induction acts generalizing s with
  | nil => exact absurd hmany (Nat.not_le_of_lt s.distance_bounds.1)
  | cons a acts ih =>
    have hrest := (s.perform a).started_le_performAll acts
    have hstart : s.started < (s.perform a).started → s.started < (s.performAll (a :: acts)).started :=
      fun hlt => Nat.lt_of_lt_of_le hlt hrest
    rcases (s.moves a).pending h hp with hp' | hlt
    · -- an act that is not awaited may be anything, but it does not put the pass off
      have hmove := (s.moves a).started_le
      have hnear : (s.perform a).distance ≤ (s.perform a).answered acts ∨
          s.started < (s.perform a).started := by
        unfold answered at hmany
        by_cases ha : a = s.awaited
        · subst ha
          refine (h.distance_lt hp).imp_left fun hlt => ?_
          simp at hmany
          omega
        · refine (s.moves a).distance_le.imp_left fun hle => ?_
          simp [ha] at hmany
          omega
      rcases hnear with hnear | hlt
      · exact Nat.lt_of_le_of_lt hmove (ih (h.perform a) hp' hnear)
      · exact hstart hlt
    · exact hstart hlt

/-! ### Every caller returns -/

theorem claimed_or_returns (s : PassService) {caller : Nat} (hfree : caller ∉ s.claimants) :
    s.queue.signalled = true ∧ s.Returns (.claim caller) ∨
      s.queue.signalled = false ∧ caller ∈ (s.perform (.claim caller)).claimants := by
  cases hflag : s.queue.signalled with
  | true => exact .inl ⟨rfl, hfree, hflag⟩
  | false =>
    refine .inr ⟨rfl, ?_⟩
    simp [PassService.perform, PassService.claim, PassQueue.claim, hfree, hflag]

theorem Moves.mem_claimants (m : s.Moves a s') {caller : Nat} (hheld : caller ∈ s.claimants)
    (hother : a ≠ .offer caller) : caller ∈ s'.claimants := by
  have herase : ∀ c, a = .offer c → caller ∈ s.claimants.erase c := by
    rintro c rfl
    have hne : caller ≠ c := fun heq => hother (heq ▸ rfl)
    exact (List.mem_erase_of_ne hne).mpr hheld
  cases m with
  | raise c down => exact List.mem_cons_of_mem c hheld
  | drop c held full => exact herase c rfl
  | queue c held room => exact herase c rfl
  | _ => exact hheld

theorem returns_performAll {caller : Nat} (hheld : caller ∈ s.claimants) {acts : List PassAct}
    (hothers : .offer caller ∉ acts) : (s.performAll acts).Returns (.offer caller) := by
  induction acts generalizing s with
  | nil => exact hheld
  | cons a acts ih =>
    obtain ⟨hother, hothers⟩ := not_or.mp fun h => hothers (List.mem_cons.mpr h)
    exact ih ((s.moves a).mem_claimants hheld (Ne.symm hother)) hothers

/-! ### Whoever signals is answered -/

/-- A caller that returns leaves a pass on its way: the one for which the flag was up already, or
whatever is in the queue after its offer. -/
theorem Balanced.pending_of_returns (h : s.Balanced) (hr : s.Returns a) :
    (s.perform a).Pending := by
  cases a with
  | claim caller =>
    obtain ⟨hfree, hup⟩ := hr
    have hstill : (s.claim caller).Pending ↔ s.Pending := by
      simp [PassService.claim, PassQueue.claim, Pending, hfree, hup]
    refine hstill.mpr ?_
    rcases h.signalled hup with hqueued | hheld | hreceived
    · exact .inl (List.ne_nil_of_mem hqueued)
    · exact .inr (.inl hheld)
    · exact .inr (.inr (.inr ⟨_, hreceived⟩))
  | offer caller =>
    have hheld : caller ∈ s.claimants := hr
    have hroom := h.room
    refine .inl ?_
    by_cases hfull : s.queue.capacity ≤ s.queue.waiting.length
    · have hne : s.queue.waiting ≠ [] := List.ne_nil_of_length_pos (Nat.lt_of_lt_of_le hroom hfull)
      simpa [PassService.perform, PassService.offer, PassQueue.offer, PassQueue.isFull, hheld,
        hfull] using hne
    · simp [PassService.perform, PassService.offer, PassQueue.offer, PassQueue.isFull, hheld, hfull]
  | _ => cases hr

/-- What callers can rely on in the state `s`. -/
structure Attentive (s : PassService) : Prop where
  /-- Signals do not pile up. -/
  single : s.queue.waiting.count .signal ≤ 1
  bounded : s.queue.waiting.length ≤ s.queue.capacity
  /-- The flag is up for a signal on its way, from the caller's first act to the task's answer. -/
  signalled : s.queue.signalled = true →
    .signal ∈ s.queue.waiting ∨ s.claimants ≠ [] ∨ s.task = .received .signal
  /-- With its first act a caller is through if the flag is up; otherwise it raises the flag. -/
  claims : ∀ caller, caller ∉ s.claimants →
    s.queue.signalled = true ∧ s.Returns (.claim caller) ∨
      s.queue.signalled = false ∧ caller ∈ (s.perform (.claim caller)).claimants
  /-- Then it is through with its offer, whatever others do before that. -/
  offers : ∀ caller ∈ s.claimants, ∀ acts, .offer caller ∉ acts →
    (s.performAll acts).Returns (.offer caller)
  /-- If they do nothing, both acts make one signal. -/
  whole : ∀ caller, caller ∉ s.claimants →
    ((s.perform (.claim caller)).perform (.offer caller)).queue = s.queue.signal
  /-- When a caller returns, a pass has yet to start. -/
  pending : ∀ a, s.Returns a → (s.perform a).Pending
  /-- This stays so until one does. -/
  lasting : ∀ a, s.Returns a → ∀ acts, ((s.perform a).performAll acts).Pending ∨
    (s.perform a).started < ((s.perform a).performAll acts).started
  /-- And one does, in at most five acts that the service waits for. -/
  answered : ∀ a, s.Returns a → ∀ acts, 5 ≤ (s.perform a).answered acts →
    (s.perform a).started < ((s.perform a).performAll acts).started

theorem Balanced.attentive (h : s.Balanced) : s.Attentive where
  single := h.count_signal_le
  bounded := h.bounded
  signalled := h.signalled
  claims _ hfree := s.claimed_or_returns hfree
  offers _ hheld _ hothers := returns_performAll hheld hothers
  whole _ hfree := s.offer_claim hfree
  pending _ hr := h.pending_of_returns hr
  lasting a hr acts := (h.perform a).pending_performAll (h.pending_of_returns hr) acts
  answered a hr acts hmany :=
    (h.perform a).lt_started (h.pending_of_returns hr) acts
      (Nat.le_trans (s.perform a).distance_bounds.2 hmany)

/-- In every interleaving of any number of callers with the task. -/
theorem run_attentive (capacity : Nat) (acts : List PassAct) : (run capacity acts).Attentive :=
  (run_balanced capacity acts).attentive

/-- A signal in the middle of a pass, for which there is no room, is answered by the pass of the
report that fills the queue. -/
example :
    let s := run 1 [.request, .receive, .start, .request, .claim 0]
    s.task = .passing ∧ s.Returns (.offer 0) ∧ (s.perform (.offer 0)).queue.signalled = false ∧
      (s.performAll [.offer 0, .finish, .receive, .start]).started = s.started + 1 := by
  decide

end PassService

end MemoryArbiter
