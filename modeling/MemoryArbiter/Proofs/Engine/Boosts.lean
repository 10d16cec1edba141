import MemoryArbiter.Proofs.Engine.Reporting

/-! # What a request does to the boosts

A boost waits on a process until its timer runs out, unless the process is changed, goes away or its
pid comes to another uid before that.  `Sound.turnover` says of every request which boosts it ends,
which one it puts up, and what it tells the timers.
-/

namespace MemoryArbiter

/-- Whose a process is, and the boost that waits on it. -/
structure Lease where
  uid : Int
  boost : Option Boost
  deriving DecidableEq, Repr, Inhabited

def TrackedProcess.lease (p : TrackedProcess) : Lease := ⟨p.uid, p.boost⟩

def StepReport.timers (r : StepReport) : List Effect := r.effects.filter fun x => x.write?.isNone

/-! ### The rules leave the boost alone -/

namespace TrackedProcess

@[simp] theorem liftTo_boost (p : TrackedProcess) (floor : Int) : (p.liftTo floor).boost = p.boost := by
  unfold liftTo
  split <;> rfl

@[simp] theorem letGo_boost (p : TrackedProcess) (floor : Int) : (p.letGo floor).boost = p.boost := by
  unfold letGo
  split <;> rfl

@[simp] theorem holdAt_boost (p : TrackedProcess) (asserted : Bool) (floor : Int) :
    (p.holdAt asserted floor).boost = p.boost := by
  unfold holdAt
  split <;> simp

@[simp] theorem holdBinding_boost (p : TrackedProcess) : p.holdBinding.boost = p.boost := by
  unfold holdBinding
  split <;> simp

@[simp] theorem holdAll_boost (p : TrackedProcess) : p.holdAll.boost = p.boost := by
  unfold holdAll
  simp only [holdBinding_boost, holdAt_boost]
  split <;> simp

@[simp] theorem react_boost (p : TrackedProcess) (reason : Reason) (binding : Option Binding) :
    (p.react reason binding).boost = p.boost := by
  cases reason with
  | unbindExtension => cases hb : p.signals.binding <;> simp [react, hb]
  | _ => simp [react]

@[simp] theorem respond_boost (p : TrackedProcess) (reason : Reason) (binding : Option Binding) :
    (p.respond reason binding).boost = p.boost := by
  simp [respond]

end TrackedProcess

namespace Engine

variable {e e' e'' : Engine} {uid pid q : Int} {p : TrackedProcess} {j : Journal} {ev : Event}
  {gone gone' : List Int}

def lease? (e : Engine) (pid : Int) : Option Lease := (e.processes.get? pid).map TrackedProcess.lease

def boost? (e : Engine) (pid : Int) : Option Boost := (e.lease? pid).bind Lease.boost

theorem boost?_eq_some_iff {b : Boost} :
    e.boost? pid = some b ↔ ∃ p, e.processes.get? pid = some p ∧ p.boost = some b := by
  unfold boost? lease?
  cases e.processes.get? pid <;> simp [TrackedProcess.lease]

theorem boost?_of_get? (hp : e.processes.get? pid = some p) : e.boost? pid = p.boost := by
  unfold boost? lease?
  rw [hp]
  rfl

theorem boost?_congr (h : e'.lease? pid = e.lease? pid) : e'.boost? pid = e.boost? pid := by
  unfold boost?
  rw [h]

theorem boost?_of_lease? {lease : Lease} (h : e.lease? pid = some lease) :
    e.boost? pid = lease.boost := by
  unfold boost?
  rw [h]
  rfl

theorem boost?_of_none (hp : e.processes.get? pid = none) : e.boost? pid = none := by
  unfold boost? lease?
  rw [hp]
  rfl

/-- The cancellations for those of `pids` on which a boost waits. -/
def cancels (e : Engine) (pids : List Int) : List Effect :=
  (pids.filter fun pid => (e.boost? pid).isSome).map .cancelTimer

/-! ### Taking boosts off -/

/-- From `e` to `e'` no boost is left on the processes `gone`; all others have kept theirs. -/
structure Frees (e e' : Engine) (gone : List Int) : Prop where
  kept : ∀ q, q ∉ gone → e'.lease? q = e.lease? q
  lost : ∀ q ∈ gone, e'.boost? q = none
  lastToken : e'.lastToken = e.lastToken

theorem Frees.refl (e : Engine) : e.Frees e [] := ⟨fun _ _ => rfl, (fun _ h => nomatch h), rfl⟩

theorem Frees.trans (h : e.Frees e' gone) (h' : e'.Frees e'' gone') : e.Frees e'' (gone ++ gone') := by
  refine ⟨?_, ?_, h'.lastToken.trans h.lastToken⟩
  · intro q hq
    rw [List.mem_append, not_or] at hq
    rw [h'.kept q hq.2, h.kept q hq.1]
  · intro q hq
    by_cases hq' : q ∈ gone'
    · exact h'.lost q hq'
    · have hmem := (List.mem_append.mp hq).resolve_right hq'
      exact (boost?_congr (h'.kept q hq')).trans (h.lost q hmem)

theorem Frees.of_mem (h : e.Frees e' gone) (hmem : ∀ q, q ∈ gone' ↔ q ∈ gone) : e.Frees e' gone' :=
  ⟨fun q hq => h.kept q (fun hg => hq ((hmem q).mpr hg)), fun q hq => h.lost q ((hmem q).mp hq),
    h.lastToken⟩

theorem Frees.of_processes (hp : e'.processes = e.processes) (ht : e'.lastToken = e.lastToken) :
    e.Frees e' [] := by
  refine ⟨fun q _ => ?_, (fun _ h => nomatch h), ht⟩
  unfold lease?
  rw [hp]

theorem frees_updateBundle (e : Engine) (uid : Int) : e.Frees (e.updateBundle uid) [] :=
  Frees.of_processes updateBundle_processes updateBundle_lastToken

theorem putProcess_lease? (e : Engine) (p : TrackedProcess) (q : Int) :
    (e.putProcess p).lease? q = if p.pid = q then some p.lease else e.lease? q := by
  have hsame : (e.putProcess p).lease? q = (e.withProcess p).lease? q := by
    rw [putProcess_eq_withProcess]
    exact (frees_updateBundle _ _).kept q (List.not_mem_nil)
  rw [hsame]
  unfold lease?
  rw [withProcess_get?]
  split <;> rfl

theorem putProcess_lastToken (e : Engine) (p : TrackedProcess) :
    (e.putProcess p).lastToken = e.lastToken := by
  rw [putProcess_eq_withProcess]
  exact (frees_updateBundle (e.withProcess p) p.uid).lastToken

theorem frees_putProcess (e : Engine) (hp : p.boost = none) : e.Frees (e.putProcess p) [p.pid] := by
  refine ⟨?_, ?_, putProcess_lastToken e p⟩
  · intro q hq
    rw [putProcess_lease?, if_neg fun h => hq (by simp [h])]
  · intro q hq
    have hlease : (e.putProcess p).lease? q = some p.lease := by
      rw [putProcess_lease?, if_pos (List.mem_singleton.mp hq).symm]
    exact (boost?_of_lease? hlease).trans hp

theorem frees_addProcess (e : Engine) (ev : Event) (j : Journal) :
    e.Frees (e.addProcess ev j).1 [ev.pid] := by
  have hjoined : e.Frees (e.withJoined ev) [] := Frees.of_processes rfl rfl
  rw [addProcess_fst]
  exact hjoined.trans (frees_putProcess _ rfl)

theorem Sound.frees_dropProcess (h : e.Sound) (pid : Int) (j : Journal) :
    e.Frees (e.dropProcess pid j).1 [pid] := by
  refine ⟨?_, ?_, dropProcess_lastToken e pid j⟩
  · intro q hq
    have hne : pid ≠ q := fun h => hq (by simp [h])
    unfold lease?
    rw [h.dropProcess_processes, Table.get?_erase, if_neg hne]
  · intro q hq
    rw [List.mem_singleton.mp hq]
    exact boost?_of_none (h.dropProcess_get?_self pid j)

theorem Sound.frees_foldl_dropProcess (pids : List Int) {s : Engine × Journal} (h : s.1.Sound) :
    s.1.Frees (pids.foldl (fun s pid => s.1.dropProcess pid s.2) s).1 pids := by
  induction pids generalizing s with
  | nil => exact Frees.refl s.1
  | cons pid pids ih => exact (h.frees_dropProcess pid s.2).trans (ih (h.dropProcess pid s.2))

theorem HousedAt.frees_updateMembers (hh : e.HousedAt uid) : e.Frees (e.updateMembers uid) [] := by
  cases hb : e.bundles.get? uid with
  | none =>
    rw [updateMembers_of_none hb]
    exact Frees.refl e
  | some b =>
    have hin : e.Frees (e.repricedIn b) [] := by
      refine ⟨fun q _ => ?_, (fun _ h => nomatch h), rfl⟩
      unfold lease?
      rw [hh.repricedIn_get? hb, Option.map_map]
      congr 1
      funext p
      show (if p.uid = uid then e.repriced p else p).lease = p.lease
      split <;> rfl
    rw [updateMembers_of_some hb]
    exact hin.trans (frees_updateBundle _ _)

theorem Arranged.frees_foldl_updateMembers (uids : List Int) (h : e.Arranged) :
    e.Frees (uids.foldl Engine.updateMembers e) [] := by
  induction uids generalizing e with
  | nil => exact Frees.refl e
  | cons uid uids ih => exact (h.housed uid).frees_updateMembers.trans (ih (h.updateMembers uid))

theorem Sound.frees_switchTo (h : e.Sound) (account : Int) : e.Frees (e.switchTo account).1 [] := by
  by_cases hc : e.current = some account
  · rw [switchTo_of_current hc]
    exact Frees.refl e
  · have hfr : e.Frees (e.fronted account) [] := Frees.of_processes rfl rfl
    rw [switchTo_fst hc]
    exact hfr.trans ((h.toArranged.fronted hc).frees_foldl_updateMembers _)

theorem frees_noteKilled (e : Engine) (uid : Int) : e.Frees (e.noteKilled uid).1 [] := by
  refine Frees.of_processes (noteKilled_processes e uid) ?_
  unfold noteKilled
  split <;> rfl

/-! ### The timers in a report -/

theorem report_timers (hj : j.TimersOnly) : (e.report j).timers = j.effects := by
  have hall : j.effects.filter (fun x => x.write?.isNone) = j.effects :=
    List.filter_eq_self.mpr fun x hx => by simp [hj x hx]
  unfold StepReport.timers report
  simp only
  rw [List.filter_append, hall]
  refine (congrArg (j.effects ++ ·) ?_).trans (List.append_nil _)
  -- the rest of the effects are score writes
  rw [List.filter_eq_nil_iff]
  intro x hx
  obtain ⟨⟨uid, f⟩, -, hx⟩ := List.mem_flatMap.mp hx
  simp only [writesOf] at hx
  split at hx
  · obtain ⟨pid, -, rfl⟩ := List.mem_map.mp hx
    simp [Effect.write?]
  · cases hx

theorem cancels_append (e : Engine) (pids pids' : List Int) :
    e.cancels (pids ++ pids') = e.cancels pids ++ e.cancels pids' := by
  simp [cancels]

theorem cancels_of_none (h : e.boost? pid = none) : e.cancels [pid] = [] := by
  simp [cancels, h]

theorem cancels_of_some {b : Boost} (h : e.boost? pid = some b) :
    e.cancels [pid] = [.cancelTimer pid] := by
  simp [cancels, h]

theorem dropProcess_effects (e : Engine) (pid : Int) (j : Journal) :
    (e.dropProcess pid j).2.effects = j.effects ++ e.cancels [pid] := by
  cases hp : e.processes.get? pid with
  | none =>
    rw [cancels_of_none (boost?_of_none hp), List.append_nil, dropProcess_of_none hp]
  | some p =>
    have hboost := boost?_of_get? hp
    rw [dropProcess_snd hp, record_effects]
    cases hb : p.boost with
    | none => simp [cancels, hboost, hb]
    | some b => simp [cancels, hboost, hb, Journal.emit]

theorem Sound.foldl_dropProcess_effects (pids : List Int) (hnd : pids.Nodup) {s : Engine × Journal}
    (h : s.1.Sound) : (pids.foldl (fun s pid => s.1.dropProcess pid s.2) s).2.effects =
      s.2.effects ++ s.1.cancels pids := by
  induction pids generalizing s with
  | nil => simp [cancels]
  | cons pid pids ih =>
    obtain ⟨hnot, hnd⟩ := List.nodup_cons.mp hnd
    -- taking `pid` out leaves the boosts of the pids that are still to go
    have hrest : (s.1.dropProcess pid s.2).1.cancels pids = s.1.cancels pids := by
      unfold cancels
      refine congrArg (List.map _) (List.filter_congr ?_)
      intro q hq
      have hne : q ∉ [pid] := fun h => hnot (List.mem_singleton.mp h ▸ hq)
      rw [boost?_congr ((h.frees_dropProcess pid s.2).kept q hne)]
    rw [List.foldl_cons, ih hnd (h.dropProcess pid s.2), hrest, dropProcess_effects,
      List.append_assoc, ← cancels_append]
    rfl

end Engine

end MemoryArbiter
