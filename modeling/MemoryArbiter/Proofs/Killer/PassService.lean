import MemoryArbiter.Killer.Queue

/-! # Callers and the killer's task

Any number of callers signal the killer (`on_pressure_signal`) while its task takes requests from the
queue, and all of them act in any order.  The flag and the queue change at different moments, but they
stay in balance: the flag stands for one signal, which is still with its caller, or queued, or with
the task.
-/

namespace MemoryArbiter

/-- What the task of the killer is at. -/
inductive TaskPhase
  | idle
  /-- A request has been taken from the queue; for a signal the flag is still up. -/
  | received (r : PassRequest)
  | lowered
  | passing
  deriving DecidableEq, Repr, Inhabited

/-- The smallest steps that others can get in between. -/
inductive PassAct
  | claim (caller : Nat)
  | offer (caller : Nat)
  /-- A pass with a report is asked for. -/
  | request
  | receive
  | lower
  | start
  | finish
  deriving DecidableEq, Repr, Inhabited

structure PassService where
  queue : PassQueue
  /-- The callers that have raised the flag and not yet offered their signal. -/
  claimants : List Nat := []
  task : TaskPhase := .idle
  /-- The number of passes that have been started. -/
  started : Nat := 0
  deriving DecidableEq, Repr, Inhabited

namespace PassService

def new (capacity : Nat) : PassService := { queue := .new capacity }

/-! ### The acts

An act that is not possible as things are does nothing.
-/

def claim (s : PassService) (caller : Nat) : PassService :=
  if caller ∈ s.claimants then s
  else
    { s with
      queue := s.queue.claim.1
      claimants := if s.queue.claim.2 then caller :: s.claimants else s.claimants }

def offer (s : PassService) (caller : Nat) : PassService :=
  if caller ∈ s.claimants then
    { s with queue := s.queue.offer, claimants := s.claimants.erase caller }
  else s

def request (s : PassService) : PassService := { s with queue := s.queue.request?.getD s.queue }

def receive (s : PassService) : PassService :=
  match s.task, s.queue.receive? with
  | .idle, some (r, q) => { s with queue := q, task := .received r }
  | _, _ => s

def lower (s : PassService) : PassService :=
  match s.task with
  | .received .signal => { s with queue := s.queue.lower .signal, task := .lowered }
  | _ => s

/-- For a report there is no flag to lower. -/
def start (s : PassService) : PassService :=
  match s.task with
  | .received .report | .lowered => { s with task := .passing, started := s.started + 1 }
  | _ => s

def finish (s : PassService) : PassService :=
  match s.task with
  | .passing => { s with task := .idle }
  | _ => s

def perform (s : PassService) : PassAct → PassService
  | .claim caller => s.claim caller
  | .offer caller => s.offer caller
  | .request => s.request
  | .receive => s.receive
  | .lower => s.lower
  | .start => s.start
  | .finish => s.finish

def performAll (s : PassService) (acts : List PassAct) : PassService := acts.foldl perform s

def run (capacity : Nat) (acts : List PassAct) : PassService := (new capacity).performAll acts

variable {s s' : PassService} {a : PassAct}

/-- Both acts of a caller with nothing in between make a whole signal. -/
theorem offer_claim (s : PassService) {caller : Nat} (hfree : caller ∉ s.claimants) :
    ((s.claim caller).offer caller).queue = s.queue.signal := by
  unfold PassQueue.signal
  cases hflag : s.queue.signalled <;> simp [claim, offer, PassQueue.claim, hfree, hflag]

/-! ### What an act can do -/

/-- The changes that an act can make. -/
inductive Moves (s : PassService) : PassAct → PassService → Prop
  | stay (a : PassAct) : Moves s a s
  | raise (caller : Nat) (down : s.queue.signalled = false) :
      Moves s (.claim caller)
        { s with queue := { s.queue with signalled := true }, claimants := caller :: s.claimants }
  | drop (caller : Nat) (held : caller ∈ s.claimants)
      (full : s.queue.capacity ≤ s.queue.waiting.length) :
      Moves s (.offer caller)
        { s with
          queue := { s.queue with signalled := false }
          claimants := s.claimants.erase caller }
  | queue (caller : Nat) (held : caller ∈ s.claimants)
      (room : s.queue.waiting.length < s.queue.capacity) :
      Moves s (.offer caller)
        { s with
          queue := { s.queue with waiting := s.queue.waiting ++ [.signal] }
          claimants := s.claimants.erase caller }
  | request (room : s.queue.waiting.length < s.queue.capacity) :
      Moves s .request
        { s with queue := { s.queue with waiting := s.queue.waiting ++ [.report] } }
  | receive (r : PassRequest) (rest : List PassRequest) (idle : s.task = .idle)
      (waiting : s.queue.waiting = r :: rest) :
      Moves s .receive { s with queue := { s.queue with waiting := rest }, task := .received r }
  | lower (signal : s.task = .received .signal) :
      Moves s .lower { s with queue := { s.queue with signalled := false }, task := .lowered }
  | start (ready : s.task = .received .report ∨ s.task = .lowered) :
      Moves s .start { s with task := .passing, started := s.started + 1 }
  | finish (passing : s.task = .passing) : Moves s .finish { s with task := .idle }

theorem moves_claim (s : PassService) (caller : Nat) :
    s.Moves (.claim caller) (s.claim caller) := by
  unfold claim
  split
  · exact .stay _
  · cases hflag : s.queue.signalled with
    | true =>
      have hsame : { s.queue with signalled := true } = s.queue :=
        congrArg (PassQueue.mk s.queue.capacity · s.queue.waiting) hflag.symm
      simpa [PassQueue.claim, hflag, hsame] using Moves.stay (s := s) (.claim caller)
    | false => simpa [PassQueue.claim, hflag] using Moves.raise caller hflag

theorem moves_offer (s : PassService) (caller : Nat) :
    s.Moves (.offer caller) (s.offer caller) := by
  unfold offer PassQueue.offer PassQueue.isFull
  split
  · next hheld =>
    by_cases hfull : s.queue.capacity ≤ s.queue.waiting.length
    · simpa [hfull] using Moves.drop caller hheld hfull
    · simpa [hfull] using Moves.queue caller hheld (Nat.lt_of_not_le hfull)
  · exact .stay _

theorem moves_request (s : PassService) : s.Moves .request s.request := by
  unfold request PassQueue.request? PassQueue.isFull
  by_cases hfull : s.queue.capacity ≤ s.queue.waiting.length
  · simpa [hfull] using Moves.stay .request
  · simpa [hfull] using Moves.request (Nat.lt_of_not_le hfull)

theorem moves_receive (s : PassService) : s.Moves .receive s.receive := by
  unfold receive
  split
  · next r q hidle hreceive =>
    unfold PassQueue.receive? at hreceive
    split at hreceive
    · cases hreceive
    · next hwaiting =>
      cases hreceive
      exact .receive _ _ hidle hwaiting
  · exact .stay _

/-- An act makes one of the changes of `Moves`. -/
theorem moves (s : PassService) (a : PassAct) : s.Moves a (s.perform a) := by
  cases a with
  | claim caller => exact s.moves_claim caller
  | offer caller => exact s.moves_offer caller
  | request => exact s.moves_request
  | receive => exact s.moves_receive
  | lower =>
    show s.Moves _ s.lower
    unfold lower
    split
    · next hsignal => exact .lower hsignal
    · exact .stay _
  | start =>
    show s.Moves _ s.start
    unfold start
    split
    · next hready => exact .start (.inl hready)
    · next hready => exact .start (.inr hready)
    · exact .stay _
  | finish =>
    show s.Moves _ s.finish
    unfold finish
    split
    · next hpassing => exact .finish hpassing
    · exact .stay _

/-! ### The flag and the signals are in balance -/

/-- The signals for which the flag has been raised and not been lowered. -/
def signals (s : PassService) : Nat :=
  s.queue.waiting.count .signal + s.claimants.length +
    if s.task = .received .signal then 1 else 0

structure Balanced (s : PassService) : Prop where
  signals : s.signals = s.queue.signalled.toNat
  bounded : s.queue.waiting.length ≤ s.queue.capacity
  room : 0 < s.queue.capacity

theorem balanced_new (capacity : Nat) : (new capacity).Balanced :=
  ⟨rfl, Nat.zero_le _, Nat.le_max_right ..⟩

theorem Moves.balanced (m : s.Moves a s') (h : s.Balanced) : s'.Balanced := by
  obtain ⟨hsignals, hbounded, hroom⟩ := h
  have hflag := s.queue.signalled.toNat_le
  unfold PassService.signals at hsignals
  cases m with
  | stay => exact ⟨hsignals, hbounded, hroom⟩
  | raise caller down =>
    refine ⟨?_, hbounded, hroom⟩
    simp only [down, Bool.toNat_false] at hsignals
    simp only [PassService.signals, List.length_cons, Bool.toNat_true]
    omega
  | drop caller held full =>
    have hlength := List.length_erase_of_mem held
    have hpos := List.length_pos_of_mem held
    refine ⟨?_, hbounded, hroom⟩
    simp only [PassService.signals, hlength, Bool.toNat_false]
    omega
  | queue caller held room =>
    have hlength := List.length_erase_of_mem held
    have hpos := List.length_pos_of_mem held
    refine ⟨?_, by simpa using Nat.succ_le_of_lt room, hroom⟩
    simp only [PassService.signals, hlength, List.count_append, List.count_singleton_self]
    omega
  | request room =>
    refine ⟨?_, by simpa using Nat.succ_le_of_lt room, hroom⟩
    simpa [PassService.signals] using hsignals
  | receive r rest idle waiting =>
    rw [waiting] at hsignals hbounded
    refine ⟨?_, Nat.le_of_succ_le hbounded, hroom⟩
    rw [← hsignals]
    cases r with
    | signal => simp [PassService.signals, idle, Nat.add_right_comm]
    | report => simp [PassService.signals, idle]
  | lower signal =>
    refine ⟨?_, hbounded, hroom⟩
    simp only [signal, if_true] at hsignals
    simp only [PassService.signals, Bool.toNat_false, reduceCtorEq, if_false]
    omega
  | start ready =>
    refine ⟨?_, hbounded, hroom⟩
    rw [← hsignals]
    rcases ready with ht | ht <;> simp [PassService.signals, ht]
  | finish passing =>
    refine ⟨?_, hbounded, hroom⟩
    rw [← hsignals]
    simp [PassService.signals, passing]

theorem Balanced.perform (h : s.Balanced) (a : PassAct) : (s.perform a).Balanced :=
  (s.moves a).balanced h

theorem Balanced.performAll (h : s.Balanced) (acts : List PassAct) :
    (s.performAll acts).Balanced := by
  induction acts generalizing s with
  | nil => exact h
  | cons a acts ih => exact ih (h.perform a)

theorem run_balanced (capacity : Nat) (acts : List PassAct) : (run capacity acts).Balanced :=
  (balanced_new capacity).performAll acts

theorem Balanced.count_signal_le (h : s.Balanced) : s.queue.waiting.count .signal ≤ 1 := by
  have hflag := s.queue.signalled.toNat_le
  have hsignals := h.signals
  unfold PassService.signals at hsignals
  omega

/-- The flag is up for a signal that is somewhere on its way to the task. -/
theorem Balanced.signalled (h : s.Balanced) (hup : s.queue.signalled = true) :
    .signal ∈ s.queue.waiting ∨ s.claimants ≠ [] ∨ s.task = .received .signal := by
  have hsignals := h.signals
  rw [hup, Bool.toNat_true] at hsignals
  unfold PassService.signals at hsignals
  by_cases hqueued : .signal ∈ s.queue.waiting
  · exact .inl hqueued
  · by_cases hheld : s.claimants = []
    · rw [List.count_eq_zero_of_not_mem hqueued, hheld] at hsignals
      by_cases ht : s.task = .received .signal
      · exact .inr (.inr ht)
      · simp [ht] at hsignals
    · exact .inr (.inl hheld)

end PassService

end MemoryArbiter
