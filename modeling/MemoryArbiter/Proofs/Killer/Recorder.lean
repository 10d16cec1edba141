import MemoryArbiter.Proofs.Killer.Course

/-! # Recorders

A recorder stands in front of a kernel, or of a roster, passes every call on and writes down those
that a hunt makes.  A hunt over recorders goes as without them: forgetting what was written down
leaves the hunt over the bare kernel and roster.
-/

namespace MemoryArbiter

/-- A call of the kernel with its answer. -/
inductive KernelCall
  | readBuffer (answer : Except KernelError Nat)
  | kill (pid : Int) (answer : Except KernelError Nat)

namespace KernelCall

/-- The call that sent this kill. -/
def ofKill (sent : Int × Except KernelError Nat) : KernelCall := .kill sent.1 sent.2

def isRead : KernelCall → Bool
  | readBuffer _ => true
  | kill .. => false

/-- The pid that a kill was sent to. -/
def target? : KernelCall → Option Int
  | readBuffer _ => none
  | kill pid _ => some pid

end KernelCall

structure RecordedKernel (κ : Type) where
  kernel : κ
  /-- The reads of the free memory and the kills, in order. -/
  calls : List KernelCall := []

structure RecordedRoster (σ : Type) where
  roster : σ
  /-- The uids that were marked, in order. -/
  marked : List Int := []

instance {κ : Type} [Kernel κ] : Kernel (RecordedKernel κ) where
  name := Kernel.name κ
  readBuffer k :=
    let answer := Kernel.readBuffer k.kernel
    (answer.1, ⟨answer.2, k.calls ++ [.readBuffer answer.1]⟩)
  livePids k := Kernel.livePids k.kernel
  kill k pid :=
    let answer := Kernel.kill k.kernel pid
    (answer.1, ⟨answer.2, k.calls ++ [.kill pid answer.1]⟩)
  writeScore k pid priority :=
    let answer := Kernel.writeScore k.kernel pid priority
    (answer.1, ⟨answer.2, k.calls⟩)
  readStall k := Kernel.readStall k.kernel

instance {σ : Type} [Roster σ] : Roster (RecordedRoster σ) where
  rows s := Roster.rows s.roster
  mark s uid :=
    let answer := Roster.mark s.roster uid
    (answer.1, ⟨answer.2, s.marked ++ [uid]⟩)

section

variable {κ σ : Type} [Kernel κ]

/-- Forget what was written down. -/
def Hunt.bare (h : Hunt (RecordedKernel κ) (RecordedRoster σ)) : Hunt κ σ :=
  ⟨h.kernel.kernel, h.roster.roster, h.notices, h.report⟩

/-- A pass over new recorders. -/
def Killer.recordedPass [Roster σ] (killer : Killer) (kernel : κ) (roster : σ) :
    Hunt (RecordedKernel κ) (RecordedRoster σ) × List Notice :=
  killer.pass { kernel } { roster }

/-! ### Reads and kills -/

theorem Hunt.reread_calls {h : Hunt (RecordedKernel κ) (RecordedRoster σ)}
    {answer : Except KernelError Nat}
    (read : (Kernel.readBuffer h.kernel).1 = answer) :
    h.reread.kernel.calls = h.kernel.calls ++ [.readBuffer answer] := by
  rw [← read]
  rfl

/-- Send one kill. -/
def sendKill (s : KillTally × κ) (pid : Int) : KillTally × κ :=
  (s.1.count (Kernel.kill s.2 pid).1, (Kernel.kill s.2 pid).2)

theorem killPids_eq_foldl (pids : List Int) (kernel : κ) :
    killPids pids kernel = pids.foldl sendKill ({}, kernel) := rfl

theorem foldl_sendKill_bare (pids : List Int) (s : KillTally × RecordedKernel κ) :
    ((pids.foldl sendKill s).1, (pids.foldl sendKill s).2.kernel) =
      pids.foldl sendKill (s.1, s.2.kernel) := by
  induction pids generalizing s with
  | nil => rfl
  | cons pid pids ih => exact ih (sendKill s pid)

theorem foldl_sendKill_calls (pids : List Int) (s : KillTally × RecordedKernel κ) :
    ∃ sent : List (Int × Except KernelError Nat), sent.map Prod.fst = pids ∧
      (pids.foldl sendKill s).2.calls = s.2.calls ++ sent.map KernelCall.ofKill := by
  induction pids generalizing s with
  | nil => exact ⟨[], rfl, (List.append_nil _).symm⟩
  | cons pid pids ih =>
    obtain ⟨sent, hpids, hcalls⟩ := ih (sendKill s pid)
    refine ⟨(pid, (Kernel.kill s.2.kernel pid).1) :: sent, by rw [List.map_cons, hpids], ?_⟩
    have hfirst : (sendKill s pid).2.calls =
        s.2.calls ++ [KernelCall.ofKill (pid, (Kernel.kill s.2.kernel pid).1)] := rfl
    rw [List.foldl_cons, hcalls, hfirst, List.append_assoc]
    rfl

theorem killPids_bare (pids : List Int) (k : RecordedKernel κ) :
    ((killPids pids k).1, (killPids pids k).2.kernel) = killPids pids k.kernel := by
  rw [killPids_eq_foldl, killPids_eq_foldl]
  exact foldl_sendKill_bare pids ({}, k)

/-! ### Turns -/

variable [Roster σ] {h h' : Hunt (RecordedKernel κ) (RecordedRoster σ)}

theorem Hunt.bare_attempt (h : Hunt (RecordedKernel κ) (RecordedRoster σ)) (row : BundleRow) :
    (h.attempt row).bare = h.bare.attempt row := by
  have hkill : killPids row.pids h.bare.kernel = _ := (killPids_bare row.pids h.kernel).symm
  unfold Hunt.attempt
  simp only [hkill]
  split <;> rfl

theorem RecordedRoster.markAll_marked (s : RecordedRoster σ) (uids : List Int) :
    (Roster.markAll s uids).marked = s.marked ++ uids := by
  induction uids generalizing s with
  | nil => exact (List.append_nil _).symm
  | cons uid uids ih => exact (ih (Roster.mark s uid).2).trans (List.append_assoc ..)

/-! ### Courses -/

variable {killer : Killer} {rows : List BundleRow} {tried : List Int} {turns : List Turn}
  {ending : Ending}

theorem Course.bare (c : Course killer rows tried h turns ending h') :
    Course killer rows tried h.bare turns ending h'.bare := by
  induction c with
  | capReached full => exact .capReached full
  | unreadable room read => exact .unreadable room read
  | healthy room read tier => exact .healthy room read tier
  | noVictim room read tier choice => exact .noVictim room read tier choice
  | turn room read tier choice rest ih =>
    refine .turn room read tier choice ?_
    rw [Hunt.bare_attempt] at ih
    exact ih

theorem Course.marked (c : Course killer rows tried h turns ending h')
    (hmarked : h.roster.marked = h.report.killed.map Kill.uid) :
    h'.roster.marked = h'.report.killed.map Kill.uid := by
  obtain ⟨counted, -, hkilled, hroster⟩ := c.counts
  rw [hroster, RecordedRoster.markAll_marked, hmarked, hkilled]

/-- The calls in the course of a hunt: each turn is one read and one kill for each pid of the row,
and the ending is one read, unless the cap was reached. -/
inductive Transcript : List Turn → Ending → List KernelCall → Prop
  | capReached : Transcript [] .capReached []
  | unreadable (error : KernelError) :
      Transcript [] (.unreadable error) [.readBuffer (.error error)]
  | healthy (kb : Nat) : Transcript [] (.healthy kb) [.readBuffer (.ok kb)]
  | noVictim (kb : Nat) (floor : Int) : Transcript [] (.noVictim kb floor) [.readBuffer (.ok kb)]
  | turn {t : Turn} {turns : List Turn} {ending : Ending} {calls : List KernelCall}
      (sent : List (Int × Except KernelError Nat)) (pids : sent.map Prod.fst = t.row.pids)
      (rest : Transcript turns ending calls) :
      Transcript (t :: turns) ending
        (.readBuffer (.ok t.bufferKb) :: sent.map KernelCall.ofKill ++ calls)

theorem Course.transcript (c : Course killer rows tried h turns ending h') :
    ∃ calls, Transcript turns ending calls ∧ h'.kernel.calls = h.kernel.calls ++ calls := by
  induction c with
  | capReached full => exact ⟨[], .capReached, (List.append_nil _).symm⟩
  | unreadable room read => exact ⟨_, .unreadable _, Hunt.reread_calls read⟩
  | healthy room read tier => exact ⟨_, .healthy _, Hunt.reread_calls read⟩
  | noVictim room read tier choice => exact ⟨_, .noVictim _ _, Hunt.reread_calls read⟩
  | turn room read tier choice rest ih =>
    rename_i h _ kb _ row _ _
    obtain ⟨calls, htranscript, hcalls⟩ := ih
    obtain ⟨sent, hpids, hsent⟩ := foldl_sendKill_calls row.pids ({}, h.reread.kernel)
    refine ⟨_, .turn sent hpids htranscript, ?_⟩
    rw [hcalls, Hunt.attempt_kernel, killPids_eq_foldl, hsent, Hunt.reread_calls read]
    simp only [List.append_assoc, List.cons_append, List.nil_append]

/-! ### Transcripts -/

/-- The read that ends a hunt, unless its cap was reached. -/
def Ending.answer? : Ending → Option (Except KernelError Nat)
  | .capReached => none
  | .unreadable error => some (.error error)
  | .healthy kb => some (.ok kb)
  | .noVictim kb _ => some (.ok kb)

theorem Transcript.getLast? {calls : List KernelCall} (t : Transcript turns ending calls)
    {answer : Except KernelError Nat} (ha : ending.answer? = some answer) :
    calls.getLast? = some (.readBuffer answer) := by
  induction t with
  | capReached => cases ha
  | turn sent pids rest ih =>
    rw [List.getLast?_append, ih ha]
    rfl
  | _ =>
    cases ha
    rfl

theorem countP_isRead_kills (sent : List (Int × Except KernelError Nat)) :
    (sent.map KernelCall.ofKill).countP KernelCall.isRead = 0 := by
  refine List.countP_eq_zero.mpr ?_
  intro call hcall
  obtain ⟨s, -, rfl⟩ := List.mem_map.mp hcall
  simp [KernelCall.ofKill, KernelCall.isRead]

/-- One read for each turn, and at most one for the ending. -/
theorem Transcript.reads_le {calls : List KernelCall} (t : Transcript turns ending calls) :
    calls.countP KernelCall.isRead ≤ turns.length + 1 := by
  induction t with
  | turn sent pids rest ih =>
    rw [List.cons_append, List.countP_cons, List.countP_append, countP_isRead_kills]
    simp only [KernelCall.isRead, List.length_cons, if_true]
    omega
  | capReached => exact Nat.zero_le _
  | _ => exact Nat.le_refl _

theorem Transcript.targets {calls : List KernelCall} (t : Transcript turns ending calls) :
    calls.filterMap KernelCall.target? = (turns.map Turn.row).flatMap BundleRow.pids := by
  induction t with
  | turn sent pids rest ih =>
    have hsent : (sent.map KernelCall.ofKill).filterMap KernelCall.target? = sent.map Prod.fst := by
      rw [List.filterMap_map]
      exact congrFun List.filterMap_eq_map sent
    rw [List.cons_append, List.filterMap_cons, List.filterMap_append, hsent, pids, ih]
    rfl
  | _ => rfl

/-! ### Passes -/

theorem Killer.pass_of_rows (killer : Killer) (kernel : κ) {roster : σ} {rows : List BundleRow}
    (hrows : Roster.rows roster = .ok rows) : killer.pass kernel roster =
      (hunt killer rows [] { kernel, roster },
        (hunt killer rows [] { kernel, roster }).report.killed.map Kill.notice ++
          [(hunt killer rows [] { kernel, roster }).report.notice]) := by
  obtain ⟨turns, ending, c⟩ := exists_course killer rows [] ({ kernel, roster } : Hunt κ σ)
  rw [← c.announced rfl]
  unfold Killer.pass
  rw [hrows]

theorem Killer.pass_of_closed (killer : Killer) (kernel : κ) {roster : σ} {closed : ClosedQueue}
    (hrows : Roster.rows roster = .error closed) :
    killer.pass kernel roster = ({ kernel, roster }, []) := by
  unfold Killer.pass
  rw [hrows]

theorem Killer.pass_course (killer : Killer) (kernel : κ) {roster : σ} {rows : List BundleRow}
    (hrows : Roster.rows roster = .ok rows) : ∃ turns ending,
      Course killer rows [] { kernel, roster } turns ending (killer.pass kernel roster).1 := by
  rw [killer.pass_of_rows kernel hrows]
  exact exists_course killer rows [] { kernel, roster }

/-- Recorders do not change a pass. -/
theorem Killer.recordedPass_bare (killer : Killer) (kernel : κ) (roster : σ) :
    ((killer.recordedPass kernel roster).1.bare, (killer.recordedPass kernel roster).2) =
      killer.pass kernel roster := by
  unfold Killer.recordedPass
  cases hrows : Roster.rows roster with
  | error closed =>
    have hrecorded : Roster.rows ({ roster } : RecordedRoster σ) = .error closed := hrows
    rw [killer.pass_of_closed kernel hrows, killer.pass_of_closed _ hrecorded]
    rfl
  | ok rows =>
    have hrecorded : Roster.rows ({ roster } : RecordedRoster σ) = .ok rows := hrows
    obtain ⟨turns, ending, c⟩ := killer.pass_course ({ kernel } : RecordedKernel κ) hrecorded
    rw [killer.pass_of_rows _ hrecorded] at c
    have hbare := c.bare.eq_hunt
    rw [killer.pass_of_rows kernel hrows, killer.pass_of_rows _ hrecorded]
    exact Prod.ext hbare (congrArg (fun h : Hunt κ σ =>
      h.report.killed.map Kill.notice ++ [h.report.notice]) hbare)

theorem Killer.recordedPass_course (killer : Killer) (kernel : κ) {roster : σ}
    {rows : List BundleRow} (hrows : Roster.rows roster = .ok rows) : ∃ turns ending,
      Course killer rows [] { kernel := { kernel }, roster := { roster } } turns ending
        (killer.recordedPass kernel roster).1 ∧
      Course killer rows [] { kernel, roster } turns ending (killer.pass kernel roster).1 ∧
      Transcript turns ending (killer.recordedPass kernel roster).1.kernel.calls := by
  have hrecorded : Roster.rows ({ roster } : RecordedRoster σ) = .ok rows := hrows
  obtain ⟨turns, ending, c⟩ := killer.pass_course ({ kernel } : RecordedKernel κ) hrecorded
  have hbare := c.bare
  have hpass : (killer.recordedPass kernel roster).1.bare = (killer.pass kernel roster).1 :=
    congrArg Prod.fst (killer.recordedPass_bare kernel roster)
  obtain ⟨calls, transcript, hcalls⟩ := c.transcript
  refine ⟨turns, ending, c, ?_, ?_⟩
  · rw [← hpass]
    exact hbare
  · have hall : (killer.recordedPass kernel roster).1.kernel.calls = calls := hcalls
    rw [hall]
    exact transcript

end

end MemoryArbiter
