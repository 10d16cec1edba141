import MemoryArbiter.Proofs.Killer.Recorder

/-! # Safety of a pass

Whatever the kernel answers, a pass stays within its cap, kills no bundle twice, and sends a kill
only to a bundle that may be killed at the free memory that was read last.
-/

namespace MemoryArbiter

/-- After the calls `before`, a kill may be sent to `pid`: it is the next pid of a bundle that is
neither pinned nor killed, and nothing but the kills of that bundle came after a read of the free
memory at which the bundle may be killed. -/
def Licensed (killer : Killer) (rows : List BundleRow) (before : List KernelCall) (pid : Int) :
    Prop :=
  ∃ row ∈ rows, row.pinned = false ∧ row.state ≠ .waitingForKill ∧
    ∃ earlier kb floor, ∃ sent : List (Int × Except KernelError Nat),
      before = earlier ++ .readBuffer (.ok kb) :: sent.map KernelCall.ofKill ∧
      killer.tiers.minPriority? kb = some floor ∧ floor ≤ row.priority ∧
      (sent.map Prod.fst ++ [pid]).IsPrefix row.pids

/-- What a pass over recorders keeps to. -/
structure SafePass {κ σ : Type} [Roster σ] (killer : Killer) (roster : σ)
    (h : Hunt (RecordedKernel κ) (RecordedRoster σ)) : Prop where
  cap : h.report.killed.length ≤ killer.cap
  distinct : (h.report.killed.map Kill.uid).Nodup
  licensed : ∀ before pid answer after, h.kernel.calls = before ++ .kill pid answer :: after →
    ∃ rows, Roster.rows roster = .ok rows ∧ Licensed killer rows before pid
  /-- A read that fails, or finds memory healthy, is the last call. -/
  halted : ∀ before answer after, h.kernel.calls = before ++ .readBuffer answer :: after →
    (∀ kb, answer = .ok kb → killer.tiers.minPriority? kb = none) → after = []
  marked : h.roster.marked = h.report.killed.map Kill.uid

variable {killer : Killer} {rows : List BundleRow} {turns : List Turn} {ending : Ending}
  {before after calls : List KernelCall} {pid : Int} {answer : Except KernelError Nat}

/-! ### Where a call stands -/

theorem append_eq_append_cons {α : Type} {xs ys before after : List α} {x : α}
    (h : xs ++ ys = before ++ x :: after) :
    (∃ mid, before = xs ++ mid ∧ ys = mid ++ x :: after) ∨
      ∃ mid, xs = before ++ x :: mid ∧ after = mid ++ ys := by
  rcases List.append_eq_append_iff.mp h with ⟨mid, hbefore, hys⟩ | ⟨mid, hxs, hcons⟩
  · exact .inl ⟨mid, hbefore, hys⟩
  · cases mid with
    | nil => exact .inl ⟨[], by rw [hxs, List.append_nil, List.append_nil], hcons.symm⟩
    | cons y mid =>
      rw [List.cons_append] at hcons
      obtain ⟨rfl, hafter⟩ := List.cons.inj hcons
      exact .inr ⟨mid, hxs, hafter⟩

theorem readBuffer_not_mem_kills (answer : Except KernelError Nat)
    (sent : List (Int × Except KernelError Nat)) :
    KernelCall.readBuffer answer ∉ sent.map KernelCall.ofKill := by
  intro hmem
  obtain ⟨s, -, hs⟩ := List.mem_map.mp hmem
  cases hs

/-! ### Licensed kills -/

theorem Licensed.after_calls (h : Licensed killer rows before pid) (calls : List KernelCall) :
    Licensed killer rows (calls ++ before) pid := by
  obtain ⟨row, hrow, hpin, hstate, earlier, kb, floor, sent, rfl, hlast⟩ := h
  refine ⟨row, hrow, hpin, hstate, calls ++ earlier, kb, floor, sent, ?_, hlast⟩
  rw [List.append_assoc]

theorem Turn.Fit.licensed {t : Turn} (fit : t.Fit killer rows)
    {sent : List (Int × Except KernelError Nat)} (hpids : sent.map Prod.fst = t.row.pids)
    (hsent : sent.map KernelCall.ofKill = before ++ .kill pid answer :: after) :
    Licensed killer rows (.readBuffer (.ok t.bufferKb) :: before) pid := by
  obtain ⟨first, others, rfl, hfirst, hothers⟩ := List.map_eq_append_iff.mp hsent
  obtain ⟨s, rest, rfl, hs, -⟩ := List.map_eq_cons_iff.mp hothers
  have hpid : s.1 = pid := by
    cases hs
    rfl
  refine ⟨t.row, fit.listed, fit.unpinned, fit.live, [], t.bufferKb, t.floor, first, ?_, fit.tier,
    fit.above, rest.map Prod.fst, ?_⟩
  · rw [hfirst, List.nil_append]
  · rw [← hpids, ← hpid]
    simp

theorem Transcript.licensed (h : Transcript turns ending calls)
    (fit : ∀ t ∈ turns, t.Fit killer rows)
    (hcalls : calls = before ++ .kill pid answer :: after) : Licensed killer rows before pid := by
  induction h generalizing before with
  | turn sent pids rest ih =>
    obtain ⟨hfirst, hrest⟩ := List.forall_mem_cons.mp fit
    cases before with
    | nil => cases hcalls
    | cons c before =>
      rw [List.cons_append, List.cons_append] at hcalls
      obtain ⟨rfl, htail⟩ := List.cons.inj hcalls
      rcases append_eq_append_cons htail with ⟨mid, rfl, hmid⟩ | ⟨mid, hmid, -⟩
      · exact (ih hrest hmid).after_calls (_ :: sent.map KernelCall.ofKill)
      · exact hfirst.licensed pids hmid
  | capReached =>
    have hlen := congrArg List.length hcalls
    simp at hlen
  | _ =>
    rcases List.append_eq_singleton_iff.mp hcalls.symm with ⟨-, hkill⟩ | ⟨-, hkill⟩ <;> cases hkill

/-! ### The end of a pass -/

theorem Transcript.halted (h : Transcript turns ending calls)
    (fit : ∀ t ∈ turns, t.Fit killer rows)
    (hcalls : calls = before ++ .readBuffer answer :: after)
    (hhealthy : ∀ kb, answer = .ok kb → killer.tiers.minPriority? kb = none) : after = [] := by
  induction h generalizing before with
  | turn sent pids rest ih =>
    obtain ⟨hfirst, hrest⟩ := List.forall_mem_cons.mp fit
    cases before with
    | nil =>
      rw [List.cons_append, List.nil_append] at hcalls
      obtain ⟨hread, -⟩ := List.cons.inj hcalls
      cases hread
      exact nomatch (hhealthy _ rfl).symm.trans hfirst.tier
    | cons c before =>
      rw [List.cons_append, List.cons_append] at hcalls
      obtain ⟨-, htail⟩ := List.cons.inj hcalls
      rcases append_eq_append_cons htail with ⟨mid, -, hmid⟩ | ⟨mid, hmid, -⟩
      · exact ih hrest hmid
      · have hnot := readBuffer_not_mem_kills answer sent
        rw [hmid] at hnot
        exact absurd List.mem_append_cons_self hnot
  | capReached =>
    have hlen := congrArg List.length hcalls
    simp at hlen
  | _ =>
    have hlen := congrArg List.length hcalls
    simp only [List.length_append, List.length_cons, List.length_nil] at hlen
    exact List.eq_nil_of_length_eq_zero (by omega)

/-! ### Every pass -/

/-- A pass is safe, whatever its kernel and its roster answer, and recorders do not change it. -/
theorem Killer.pass_safe {κ σ : Type} [Kernel κ] [Roster σ] (killer : Killer) (kernel : κ)
    (roster : σ) : SafePass killer roster (killer.recordedPass kernel roster).1 ∧
      ((killer.recordedPass kernel roster).1.bare, (killer.recordedPass kernel roster).2) =
        killer.pass kernel roster := by
  refine ⟨?_, killer.recordedPass_bare kernel roster⟩
  cases hrows : Roster.rows roster with
  | error closed =>
    have hrecorded : Roster.rows ({ roster } : RecordedRoster σ) = .error closed := hrows
    unfold Killer.recordedPass
    rw [killer.pass_of_closed _ hrecorded]
    refine ⟨Nat.zero_le _, List.nodup_nil, ?_,
      ?_, rfl⟩
    · intro before pid answer after hcalls
      exact absurd hcalls.symm (by simp)
    · intro before answer after hcalls
      exact absurd hcalls.symm (by simp)
  | ok rows =>
    obtain ⟨turns, ending, c, -, transcript⟩ := killer.recordedPass_course kernel hrows
    exact ⟨c.killed_le (Nat.zero_le _), c.killed_uids_nodup rfl,
      fun before pid answer after hcalls => ⟨rows, hrows, transcript.licensed c.fit hcalls⟩,
      fun before answer after hcalls => transcript.halted c.fit hcalls, c.marked rfl⟩

end MemoryArbiter
