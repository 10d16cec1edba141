import MemoryArbiter.Proofs.Engine.Determination
import MemoryArbiter.Proofs.Engine.Redelivery

/-! # Reconciliation

Taking out the processes that are no longer alive comes to the same as their termination one by one,
in any order.  What is left does not depend on the order: the processes are those that have not been
taken out, and a sound engine has no choice about the rest.
-/

namespace MemoryArbiter

namespace Engine

variable {e e' e'' : Engine} {gone gone' : List Int} {uid pid : Int} {ev : Event} {evs : List Event}
  {live : List Int}

/-! ### Taking out some processes -/

/-- What is left of `e` without the processes `gone` is `e'`. -/
structure Thinned (e e' : Engine) (gone : List Int) : Prop where
  terms : e.SameTerms e'
  lastToken : e'.lastToken = e.lastToken
  process : ∀ pid, e'.processes.get? pid = if pid ∈ gone then none else e.processes.get? pid
  bundle : ∀ uid c, e'.bundles.get? uid = some c → ∃ b, e.bundles.get? uid = some b ∧
    c.name = b.name ∧ c.state = b.state ∧ c.pinned = b.pinned

theorem Thinned.of_untracked (hp : e.processes.get? pid = none) : e.Thinned e [pid] := by
  refine ⟨SameTerms.refl e, rfl, fun qid => ?_, fun uid c hc => ⟨c, hc, rfl, rfl, rfl⟩⟩
  by_cases hq : qid = pid
  · simp [hq, hp]
  · simp [hq]

theorem Thinned.nil (e : Engine) : e.Thinned e [] :=
  ⟨SameTerms.refl e, rfl, fun _ => rfl, fun _ c hc => ⟨c, hc, rfl, rfl, rfl⟩⟩

theorem Thinned.trans (h : e.Thinned e' gone) (h' : e'.Thinned e'' gone') :
    e.Thinned e'' (gone ++ gone') := by
  refine ⟨h.terms.trans h'.terms, h'.lastToken.trans h.lastToken, fun pid => ?_, fun uid d hd => ?_⟩
  · rw [h'.process, h.process]
    by_cases hpid : pid ∈ gone <;> simp [hpid]
  · obtain ⟨c, hc, hname', hstate', hpin'⟩ := h'.bundle uid d hd
    obtain ⟨b, hb, hname, hstate, hpin⟩ := h.bundle uid c hc
    exact ⟨b, hb, hname'.trans hname, hstate'.trans hstate, hpin'.trans hpin⟩

theorem Sound.thinned_dropProcess (h : e.Sound) (pid : Int) (j : Journal) :
    e.Thinned (e.dropProcess pid j).1 [pid] := by
  refine ⟨dropProcess_terms e pid j, (h.frees_dropProcess pid j).lastToken, fun qid => ?_, ?_⟩
  · rw [h.dropProcess_processes, Table.get?_erase]
    by_cases hq : pid = qid
    · simp [hq]
    · simp [hq, Ne.symm hq]
  · intro uid c hc
    have hleft : (e.lifecycle.drop pid).bundles.get? uid = some c.unpriced := by
      rw [← h.lifecycle_dropProcess pid j, lifecycle_bundle?, hc]
      rfl
    obtain ⟨d, hd, hkept⟩ := Lifecycle.bundle?_drop hleft
    rw [lifecycle_bundle?] at hd
    obtain ⟨b, hb, rfl⟩ := Option.map_eq_some_iff.mp hd
    exact ⟨b, hb, hkept⟩

theorem Sound.thinned_foldl_dropProcess (pids : List Int) {s : Engine × Journal} (h : s.1.Sound) :
    s.1.Thinned (pids.foldl (fun s pid => s.1.dropProcess pid s.2) s).1 pids := by
  induction pids generalizing s with
  | nil => exact Thinned.nil s.1
  | cons pid pids ih => exact (h.thinned_dropProcess pid s.2).trans (ih (h.dropProcess pid s.2))

/-! ### The outcome is determined -/

/-- A bundle is left exactly where a process is, and lists the processes that are left. -/
theorem Thinned.bundle?_unpriced (t : e.Thinned e' gone) (t' : e.Thinned e'' gone') (h' : e'.Sound)
    (h'' : e''.Sound) (hprocesses : e''.processes = e'.processes) {c : Bundle}
    (hc : e'.bundles.get? uid = some c) :
    ∃ d, e''.bundles.get? uid = some d ∧ d.unpriced = c.unpriced := by
  have htracks : ∀ pid, e''.Tracks uid pid ↔ e'.Tracks uid pid := by
    intro pid
    unfold Tracks
    rw [hprocesses]
  obtain ⟨hcu, hca, ⟨pid, hpid⟩, hcp⟩ := (h'.housed uid).bundle c hc
  obtain ⟨p, hp, hpu⟩ := (htracks pid).mpr ((hcp pid).mp hpid)
  obtain ⟨-, d, hd⟩ := (h''.housed uid).process pid p hp hpu
  obtain ⟨hdu, hda, -, hdp⟩ := (h''.housed uid).bundle d hd
  have hpids : d.pids = c.pids := by
    apply IdSet.ext_mem
    intro pid
    rw [hdp, hcp, htracks]
  obtain ⟨b, hb, hname, hstate, hpin⟩ := t.bundle uid c hc
  obtain ⟨b', hb', hname', hstate', hpin'⟩ := t'.bundle uid d hd
  obtain rfl := Option.some.inj (hb.symm.trans hb')
  refine ⟨d, hd, ?_⟩
  cases c
  cases d
  simp_all [Bundle.unpriced]

/-- Only which of the tracked processes are taken out counts. -/
theorem Thinned.eq (t : e.Thinned e' gone) (t' : e.Thinned e'' gone') (h' : e'.Sound) (h'' : e''.Sound)
    (hmem : ∀ pid p, e.processes.get? pid = some p → (pid ∈ gone' ↔ pid ∈ gone)) : e'' = e' := by
  have hprocesses : e''.processes = e'.processes := by
    apply Table.ext_get?
    intro pid
    rw [t.process, t'.process]
    cases hp : e.processes.get? pid with
    | none => simp
    | some p => simp [hmem pid p hp]
  refine h'.eq_of_agreeAt h'' (t.terms.symm.trans t'.terms) (fun uid => ⟨?_, fun pid p _ => ?_⟩)
    (t'.lastToken.trans t.lastToken.symm)
  · rw [lifecycle_bundle?, lifecycle_bundle?]
    cases hc : e'.bundles.get? uid with
    | some c =>
      obtain ⟨d, hd, hunpriced⟩ := t.bundle?_unpriced t' h' h'' hprocesses hc
      rw [hd, Option.map_some, Option.map_some, hunpriced]
    | none =>
      cases hd : e''.bundles.get? uid with
      | none => rfl
      | some d =>
        obtain ⟨c, hc', -⟩ := t'.bundle?_unpriced t h'' h' hprocesses.symm hd
        exact nomatch hc.symm.trans hc'
  · rw [lifecycle_process?, lifecycle_process?, hprocesses]

/-! ### One by one -/

/-- The events `evs` tell the end of every tracked process that is not among `live`, and of no
other. -/
structure Terminates (e : Engine) (live : List Int) (evs : List Event) : Prop where
  reason : ∀ ev ∈ evs, ev.reason = .processTerminated
  tracks : ∀ ev ∈ evs, e.Tracks ev.targetUid ev.pid
  dead : ∀ pid p, e.processes.get? pid = some p → (pid ∈ evs.map Event.pid ↔ pid ∉ live)

theorem exists_terminates (e : Engine) (live : List Int) : ∃ evs, e.Terminates live evs := by
  let ending : Int × TrackedProcess → Event := fun x =>
    { pid := x.1, targetUid := x.2.uid, reason := .processTerminated }
  refine ⟨(e.processes.entries.filter fun x => !live.contains x.1).map ending, ⟨?_, ?_, ?_⟩⟩
  · intro ev hev
    obtain ⟨x, -, rfl⟩ := List.mem_map.mp hev
    rfl
  · intro ev hev
    obtain ⟨⟨pid, p⟩, hx, rfl⟩ := List.mem_map.mp hev
    exact ⟨p, Table.mem_entries.mp (List.mem_filter.mp hx).1, rfl⟩
  · intro pid p hp
    have hentry := Table.mem_entries.mpr hp
    simp only [List.map_map, List.mem_map, List.mem_filter]
    constructor
    · rintro ⟨x, ⟨-, hdead⟩, rfl⟩
      simpa using hdead
    · intro hdead
      exact ⟨(pid, p), ⟨hentry, by simpa using hdead⟩, rfl⟩

theorem Sound.thinned_terminated (h : e.Sound) (hr : ev.reason = .processTerminated)
    (hu : ∀ p, e.processes.get? ev.pid = some p → p.uid = ev.targetUid) :
    e.Thinned (e.after (.event ev)) [ev.pid] := by
  have hafter : e.after (.event ev) = (e.untrack ev).1 := congrArg Prod.fst (update_of_terminate hr)
  rw [hafter]
  cases hp : e.processes.get? ev.pid with
  | some p =>
    rw [untrack_of_tracks ⟨p, hp, hu p hp⟩]
    exact h.thinned_dropProcess ev.pid {}
  | none =>
    have huntracked : ¬ e.Tracks ev.targetUid ev.pid := fun ⟨_, hq, _⟩ => nomatch hp.symm.trans hq
    rw [untrack_refused (untrack_error_iff.mpr ⟨huntracked, rfl⟩)]
    exact Thinned.of_untracked hp

/-- The events may come in any order, and more than once. -/
theorem Sound.thinned_foldl_terminated (h : e.Sound) (hr : ∀ ev ∈ evs, ev.reason = .processTerminated)
    (hu : ∀ ev ∈ evs, ∀ p, e.processes.get? ev.pid = some p → p.uid = ev.targetUid) :
    (evs.foldl (fun e ev => e.after (.event ev)) e).Sound ∧
      e.Thinned (evs.foldl (fun e ev => e.after (.event ev)) e) (evs.map Event.pid) := by
  induction evs generalizing e with
  | nil => exact ⟨h, Thinned.nil e⟩
  | cons ev evs ih =>
    have hstep := h.thinned_terminated (hr ev (List.mem_cons_self ..)) (hu ev (List.mem_cons_self ..))
    obtain ⟨hsound, hrest⟩ := ih (h.after (.event ev)) (fun x hx => hr x (List.mem_cons_of_mem _ hx))
      fun x hx p hp => by
        -- a process that is left is under the uid where it was
        rw [hstep.process] at hp
        split at hp
        · cases hp
        · exact hu x (List.mem_cons_of_mem _ hx) p hp
    exact ⟨hsound, hstep.trans hrest⟩

/-! ### The whole list at once -/

/-- The tracked processes that are not among `live`, ascending. -/
def dead (e : Engine) (live : List Int) : List Int :=
  e.processes.keys.filter fun pid => !live.contains pid

theorem mem_dead {p : TrackedProcess} (hp : e.processes.get? pid = some p) :
    pid ∈ e.dead live ↔ pid ∉ live := by
  have hkey : pid ∈ e.processes.keys := Table.mem_keys.mpr (by rw [hp]; rfl)
  unfold dead
  simp [hkey]

theorem Sound.thinned_retain (h : e.Sound) (live : List Int) :
    e.Thinned (e.after (.retain live)) (e.dead live) :=
  Sound.thinned_foldl_dropProcess (e.dead live) (s := (e, {})) h

theorem Sound.foldl_terminated (h : e.Sound) (hevs : e.Terminates live evs) :
    evs.foldl (fun e ev => e.after (.event ev)) e = e.after (.retain live) := by
  have hu : ∀ ev ∈ evs, ∀ p, e.processes.get? ev.pid = some p → p.uid = ev.targetUid := by
    intro ev hev p hp
    obtain ⟨q, hq, hqu⟩ := hevs.tracks ev hev
    rw [Option.some.inj (hp.symm.trans hq), hqu]
  obtain ⟨hsound, hthinned⟩ := h.thinned_foldl_terminated hevs.reason hu
  refine (h.thinned_retain live).eq hthinned (h.after _) hsound fun pid p hp => ?_
  rw [hevs.dead pid p hp, mem_dead hp]

theorem Sound.process?_after_retain (h : e.Sound) (live : List Int) (pid : Int) :
    (e.after (.retain live)).processes.get? pid =
      if pid ∈ live then e.processes.get? pid else none := by
  rw [(h.thinned_retain live).process]
  cases hp : e.processes.get? pid with
  | none => simp
  | some p =>
    have hdead : pid ∈ e.dead live ↔ pid ∉ live := mem_dead hp
    by_cases hlive : pid ∈ live <;> simp [hdead, hlive]

theorem Sound.retain_again (h : e.Sound) (live : List Int) :
    (e.after (.retain live)).Idle (.retain live) := by
  have hnone : (e.after (.retain live)).dead live = [] := by
    refine List.filter_eq_nil_iff.mpr fun pid hpid => ?_
    rw [Table.mem_keys, h.process?_after_retain] at hpid
    by_cases hlive : pid ∈ live
    · simp [hlive]
    · rw [if_neg hlive] at hpid
      cases hpid
  have hretain : (e.after (.retain live)).retain live = (e.after (.retain live), {}) := by
    unfold dead at hnone
    unfold Engine.retain
    rw [hnone]
    rfl
  refine idle_of_step (r := .retain live) ?_
  unfold step
  simp only [hretain]

/-! ### What is reported -/

theorem Sound.retain_timers (h : e.Sound) (live : List Int) :
    (e.reportOf (.retain live)).timers = e.cancels (e.dead live) := by
  have hnd : (e.dead live).Nodup := e.processes.keys_nodup.filter _
  have hok : (e.step (.retain live)).2 = .ok (e.retain live).2 := rfl
  rw [reportOf_of_ok hok]
  unfold Engine.retain
  simp only
  rw [report_timers (foldl_dropProcess_timersOnly _ timersOnly_start)]
  exact h.foldl_dropProcess_effects (e.dead live) hnd (s := (e, {}))

theorem Sound.standing?_priority (h : e.Sound) (uid : Int) :
    (e.standing? uid).map Standing.priority = e.index.get? uid := by
  rw [(h.priced uid).rank]
  unfold standing?
  rw [Option.map_map]
  rfl

/-- A change is told where the priority in the index differs. -/
theorem changeTo_eq_none_iff (h : e.Sound) (h' : e'.Sound) :
    e.changeTo e' uid = none ↔ e'.index.get? uid = e.index.get? uid := by
  rw [← h.standing?_priority, ← h'.standing?_priority]
  unfold changeTo
  cases e.standing? uid <;> cases e'.standing? uid <;> simp [eq_comm]

theorem changeTo_priorities (h : e.Sound) (h' : e'.Sound) {c : Change}
    (hc : e.changeTo e' uid = some c) :
    c.old = e.index.get? uid ∧ c.new = e'.index.get? uid := by
  rw [← h.standing?_priority, ← h'.standing?_priority]
  unfold changeTo at hc
  cases hs : e.standing? uid <;> cases hs' : e'.standing? uid <;> simp [hs, hs'] at hc
  · simp [← hc]
  · simp [← hc]
  · simp [← hc.2]

theorem Tells.changeTo_names {report : StepReport} (h : e.Tells e' report) {s : Standing}
    (hs : e.standing? uid = some s) {c : Change} (hc : e.changeTo e' uid = some c) :
    c.name = s.name ∧ c.account = s.account := by
  unfold changeTo at hc
  cases hs' : e'.standing? uid with
  | none =>
    simp [hs, hs'] at hc
    simp [← hc]
  | some s' =>
    have hkept := h.stable uid s s' hs hs'
    simp [hs, hs'] at hc
    simp [← hc.2, hkept]

/-! ### The whole step -/

/-- What the step by `live` does. -/
structure Reconciles (e : Engine) (live : List Int) : Prop where
  /-- It is the same as the end of the processes that it takes out, one by one. -/
  oneByOne : ∀ evs, e.Terminates live evs →
    evs.foldl (fun e ev => e.after (.event ev)) e = e.after (.retain live)
  possible : ∃ evs, e.Terminates live evs
  /-- The records that are left are untouched. -/
  process : ∀ pid, (e.after (.retain live)).processes.get? pid =
    if pid ∈ live then e.processes.get? pid else none
  ascending : ((e.reportOf (.retain live)).changes.map Change.uid).Pairwise (· < ·)
  affected : ∀ uid, uid ∈ (e.reportOf (.retain live)).changes.map Change.uid ↔
    (e.after (.retain live)).index.get? uid ≠ e.index.get? uid
  change : ∀ c ∈ (e.reportOf (.retain live)).changes, c.old = e.index.get? c.uid ∧
    c.new = (e.after (.retain live)).index.get? c.uid
  /-- The bundle of a change was there before, under the same name. -/
  source : ∀ c ∈ (e.reportOf (.retain live)).changes, ∃ b, e.bundles.get? c.uid = some b ∧
    c.name = b.name ∧ c.account = b.account
  timers : (e.reportOf (.retain live)).timers = e.cancels (e.dead live)
  again : (e.after (.retain live)).Idle (.retain live)

theorem Sound.retain_affected (h : e.Sound) (live : List Int) (uid : Int) :
    uid ∈ (e.reportOf (.retain live)).changes.map Change.uid ↔
      (e.after (.retain live)).index.get? uid ≠ e.index.get? uid := by
  have htells := h.tells (.retain live)
  rw [List.mem_map, Ne, ← changeTo_eq_none_iff h (h.after (.retain live))]
  constructor
  · rintro ⟨c, hc, rfl⟩ hnone
    exact nomatch hnone.symm.trans ((htells.mem_changes c).mp hc)
  · intro hsome
    obtain ⟨c, hc⟩ := Option.ne_none_iff_exists'.mp hsome
    obtain rfl := changeTo_uid hc
    exact ⟨c, (htells.mem_changes c).mpr hc, rfl⟩

theorem Sound.retain_source (h : e.Sound) (live : List Int) {c : Change}
    (hc : c ∈ (e.reportOf (.retain live)).changes) :
    ∃ b, e.bundles.get? c.uid = some b ∧ c.name = b.name ∧ c.account = b.account := by
  have htells := h.tells (.retain live)
  have hto := (htells.mem_changes c).mp hc
  cases hb : e.bundles.get? c.uid with
  | none =>
    -- nothing is where no bundle was
    have hnone : (e.after (.retain live)).bundles.get? c.uid = none := by
      refine Option.eq_none_iff_forall_ne_some.mpr fun d hd => ?_
      obtain ⟨b, hb', -⟩ := (h.thinned_retain live).bundle c.uid d hd
      exact nomatch hb.symm.trans hb'
    rw [changeTo_of_eq ((standing?_of_none hnone).trans (standing?_of_none hb).symm)] at hto
    cases hto
  | some b =>
    exact ⟨b, rfl, htells.changeTo_names (standing?_of_some hb) hto⟩

theorem Sound.reconciles (h : e.Sound) (live : List Int) : e.Reconciles live where
  oneByOne _ hevs := h.foldl_terminated hevs
  possible := e.exists_terminates live
  process := h.process?_after_retain live
  ascending := (h.tells (.retain live)).ascending
  affected := h.retain_affected live
  change c hc := changeTo_priorities h (h.after _) (((h.tells (.retain live)).mem_changes c).mp hc)
  source _ hc := h.retain_source live hc
  timers := h.retain_timers live
  again := h.retain_again live

/-- After every run, whatever pids are said to be alive. -/
theorem run_reconciles (settings : Settings) (requests : List Request) (live : List Int) :
    (run settings requests).Reconciles live :=
  (run_sound settings requests).reconciles live

/-- Unknown and repeated pids do no harm. -/
example : ((run {} [.sent .createProcess 1 20000001 none, .sent .createProcess 2 20000001 none,
    .sent .createProcess 3 20200001 none]).after (.retain [7, 2, 2])).snapshot.map BundleRow.pids =
      [[2]] := by decide

end Engine

end MemoryArbiter
