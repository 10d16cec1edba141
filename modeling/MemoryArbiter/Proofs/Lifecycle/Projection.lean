import MemoryArbiter.Proofs.Engine.Refusal
import MemoryArbiter.Proofs.Engine.Turnover
import MemoryArbiter.Proofs.Lifecycle.Basic

/-! # The engine follows its lifecycle

Whatever the engine does, its lifecycle does the corresponding step of the machine.  Recomputing
priorities is no step at all, and what the engine refuses can be told from the lifecycle.
-/

namespace MemoryArbiter

namespace Engine

variable {e : Engine} {uid pid : Int} {b : Bundle} {p : TrackedProcess} {ev : Event}

/-! ### Recomputing priorities is no step -/

theorem lifecycle_updateProcess (e : Engine) (pid : Int) :
    (e.updateProcess pid).lifecycle = e.lifecycle := by
  unfold updateProcess
  cases hp : e.processes.get? pid with
  | none => rfl
  | some p =>
    have hget : (e.processes.map TrackedProcess.unpriced).get? pid = some p.unpriced := by simp [hp]
    unfold lifecycle
    simp only [Table.map_insert]
    congr 1
    exact Table.insert_of_get? hget

theorem lifecycle_updateBundle (e : Engine) (uid : Int) :
    (e.updateBundle uid).lifecycle = e.lifecycle := by
  cases hb : e.bundles.get? uid with
  | none => rw [updateBundle_of_none hb]
  | some b =>
    have hget : (e.bundles.map Bundle.unpriced).get? uid = some b.unpriced := by simp [hb]
    rw [updateBundle_of_some hb]
    unfold lifecycle
    simp only [Table.map_insert]
    congr 1
    exact Table.insert_of_get? hget

theorem lifecycle_foldl_updateProcess (pids : List Int) (e : Engine) :
    (pids.foldl updateProcess e).lifecycle = e.lifecycle := by
  induction pids generalizing e with
  | nil => rfl
  | cons pid pids ih => exact (ih (e.updateProcess pid)).trans (lifecycle_updateProcess e pid)

theorem lifecycle_updateMembers (e : Engine) (uid : Int) :
    (e.updateMembers uid).lifecycle = e.lifecycle :=
  (lifecycle_updateBundle _ uid).trans (lifecycle_foldl_updateProcess _ e)

theorem lifecycle_foldl_updateMembers (uids : List Int) (e : Engine) :
    (uids.foldl updateMembers e).lifecycle = e.lifecycle := by
  induction uids generalizing e with
  | nil => rfl
  | cons uid uids ih => exact (ih (e.updateMembers uid)).trans (lifecycle_updateMembers e uid)

/-- A switch changes priorities and the marks on the accounts, and nothing else. -/
theorem lifecycle_switchTo (e : Engine) (account : Int) :
    (e.switchTo account).1.lifecycle = e.lifecycle := by
  by_cases hc : e.current = some account
  · rw [switchTo_of_current hc]
  · rw [switchTo_fst hc, lifecycle_foldl_updateMembers]
    unfold lifecycle fronted
    congr 1
    apply Table.ext_get?
    intro id
    simp [Function.comp_def]

theorem lifecycle_putProcess (e : Engine) (hpid : p.pid = pid) : (e.putProcess p).lifecycle =
    { e.lifecycle with processes := e.lifecycle.processes.insert pid p.unpriced } := by
  subst hpid
  rw [putProcess_eq_withProcess, lifecycle_updateBundle]
  unfold withProcess lifecycle
  simp only [Table.map_insert]
  rfl

/-! ### Looking things up -/

theorem lifecycle_process? (e : Engine) (pid : Int) :
    e.lifecycle.processes.get? pid = (e.processes.get? pid).map TrackedProcess.unpriced :=
  Table.get?_map _ _ _

theorem lifecycle_bundle? (e : Engine) (uid : Int) :
    e.lifecycle.bundles.get? uid = (e.bundles.get? uid).map Bundle.unpriced :=
  Table.get?_map _ _ _

theorem lifecycle_account? (e : Engine) (id : Int) :
    e.lifecycle.accounts.get? id = (e.accounts.get? id).map Account.uids :=
  Table.get?_map _ _ _

theorem lifecycle_tracks_iff : e.lifecycle.tracks uid pid = true ↔ e.Tracks uid pid := by
  unfold Lifecycle.tracks Tracks
  rw [lifecycle_process?]
  cases e.processes.get? pid <;> simp [TrackedProcess.unpriced]

theorem lifecycle_refusal? (e : Engine) (uid pid : Int) :
    e.lifecycle.refusal? uid pid = e.refusal? uid pid := by
  unfold Lifecycle.refusal? refusal?
  rw [lifecycle_bundle?]
  cases e.bundles.get? uid <;> rfl

theorem lifecycle_levelOf (e : Engine) (uid : Int) : e.lifecycle.levelOf uid = e.levelOf uid := by
  have hlevels : ∀ pids : List Int,
      (pids.filterMap e.lifecycle.processes.get?).map TrackedProcess.level =
        (pids.filterMap e.processes.get?).map TrackedProcess.level := by
    intro pids
    rw [List.map_filterMap, List.map_filterMap]
    congr 1
    funext pid
    rw [lifecycle_process?]
    cases e.processes.get? pid <;> rfl
  unfold Lifecycle.levelOf levelOf members
  rw [lifecycle_bundle?]
  cases e.bundles.get? uid with
  | none => rfl
  | some b => exact congrArg List.min? (hlevels b.pids.toList)

theorem lifecycle_bindingFor (e : Engine) (ev : Event) :
    e.lifecycle.bindingFor ev = e.bindingFor ev := by
  have hlevel : e.lifecycle.levelOf = e.levelOf := funext e.lifecycle_levelOf
  unfold Lifecycle.bindingFor bindingFor
  rw [hlevel]

/-! ### The steps -/

theorem lifecycle_delist (e : Engine) (id uid : Int) : (e.delist id uid).lifecycle =
    { e.lifecycle with
      accounts := e.lifecycle.accounts.assign id (e.lifecycle.remaining id uid) } := by
  have hacc : (e.delist id uid).accounts.map Account.uids =
      (e.accounts.map Account.uids).assign id (e.lifecycle.remaining id uid) := by
    apply Table.ext_get?
    intro id'
    unfold Lifecycle.remaining
    rw [Table.get?_map, delist_get?, Table.get?_assign, Table.get?_map, lifecycle_account?]
    by_cases hid : id = id'
    · subst hid
      cases e.accounts.get? id with
      | none => simp
      | some a => simp [Option.filter_some]
    · simp [hid]
  rw [delist_eq]
  unfold lifecycle
  simp only [hacc]
  rfl

theorem lifecycle_dropBundle (e : Engine) (b : Bundle) : (e.dropBundle b).lifecycle =
    { e.lifecycle with
      bundles := e.lifecycle.bundles.erase b.uid
      accounts :=
        e.lifecycle.accounts.assign b.account (e.lifecycle.remaining b.account b.uid) } := by
  unfold dropBundle
  rw [lifecycle_delist]
  unfold lifecycle
  simp only [Table.map_erase]
  rfl

theorem lifecycle_rest (hb : e.bundles.get? uid = some b) (pid : Int) :
    e.lifecycle.rest uid pid =
      if (b.without pid).pids.isEmpty then none else some (b.without pid).unpriced := by
  unfold Lifecycle.rest
  rw [lifecycle_bundle?, hb]
  have hpids : (b.unpriced.without pid).pids = (b.without pid).pids := rfl
  by_cases hempty : (b.without pid).pids.isEmpty = true
  · simp [hpids, hempty, Option.filter_some]
  · simp [hpids, hempty, Option.filter_some]
    rfl

theorem Sound.lifecycle_dropProcess (h : e.Sound) (pid : Int) (j : Journal) :
    (e.dropProcess pid j).1.lifecycle = e.lifecycle.drop pid := by
  unfold Lifecycle.drop
  rw [lifecycle_process?]
  cases hp : e.processes.get? pid with
  | none =>
    rw [dropProcess_of_none hp]
    rfl
  | some p =>
    obtain ⟨-, b, hb⟩ := (h.housed p.uid).process pid p hp rfl
    obtain ⟨hbu, hacc, -⟩ := (h.housed p.uid).bundle b hb
    have hwithout : (e.without b pid).lifecycle =
        { e.lifecycle with
          processes := e.lifecycle.processes.erase pid
          bundles := e.lifecycle.bundles.insert p.uid (b.without pid).unpriced } := by
      unfold lifecycle Engine.without
      simp only [Table.map_erase, Table.map_insert, hbu]
    have hu : p.unpriced.uid = p.uid := rfl
    rw [dropProcess_fst hp hb hbu, Option.map_some]
    simp only [hu, lifecycle_rest hb]
    -- with its last process the bundle goes, and its account loses it
    by_cases hempty : (b.without pid).pids.isEmpty = true
    · have hgone : (b.without pid).uid = p.uid := hbu
      have hlisted : (b.without pid).account = accountOf p.uid := hacc
      simp only [if_pos hempty]
      rw [lifecycle_dropBundle, hwithout, hgone, hlisted]
      simp only [Table.assign, Table.erase_insert]
      rfl
    · simp only [if_neg hempty]
      split
      · rw [lifecycle_updateBundle, hwithout]
        rfl
      · exact hwithout

theorem Sound.lifecycle_foldl_dropProcess (pids : List Int) {s : Engine × Journal}
    (h : s.1.Sound) : (pids.foldl (fun s pid => s.1.dropProcess pid s.2) s).1.lifecycle =
      pids.foldl Lifecycle.drop s.1.lifecycle := by
  induction pids generalizing s with
  | nil => rfl
  | cons pid pids ih =>
    have hstep := h.lifecycle_dropProcess pid s.2
    rw [List.foldl_cons, List.foldl_cons, ← hstep]
    exact ih (h.dropProcess pid s.2)

theorem lifecycle_bundleFor (e : Engine) (ev : Event) :
    e.lifecycle.bundleFor e.settings.policy ev = (e.bundleFor ev).unpriced := by
  unfold Lifecycle.bundleFor bundleFor
  rw [lifecycle_bundle?]
  cases e.bundles.get? ev.targetUid <;> rfl

theorem lifecycle_addProcess (e : Engine) (ev : Event) (j : Journal) :
    (e.addProcess ev j).1.lifecycle = e.lifecycle.add e.settings.policy ev := by
  have hjoined : (e.withJoined ev).lifecycle =
      { e.lifecycle with
        bundles := e.lifecycle.bundles.insert ev.targetUid (e.joined ev).unpriced
        accounts := e.lifecycle.accounts.insert (accountOf ev.targetUid)
          (((e.lifecycle.accounts.get? (accountOf ev.targetUid)).getD ∅).insert
            ev.targetUid) } := by
    have huids : (e.accountRecord (accountOf ev.targetUid)).uids =
        ((e.accounts.map Account.uids).get? (accountOf ev.targetUid)).getD ∅ := by
      unfold accountRecord
      rw [Table.get?_map]
      cases e.accounts.get? (accountOf ev.targetUid) <;> rfl
    unfold lifecycle withJoined enroll
    simp only [Table.map_insert, huids]
  rw [addProcess_fst, lifecycle_putProcess _ rfl, hjoined]
  unfold Lifecycle.add
  rw [lifecycle_bundleFor]
  rfl

theorem lifecycle_tokenFor (e : Engine) (reason : Reason) :
    e.lifecycle.tokenFor e.settings.policy reason = e.tokenFor reason := rfl

theorem Sound.lifecycle_changeProcess (h : e.Sound) (ev : Event) :
    (e.changeProcess ev).1.lifecycle =
      if (e.lifecycle.refusal? ev.targetUid ev.pid).isSome then e.lifecycle
      else e.lifecycle.change e.settings.policy ev := by
  rw [lifecycle_refusal?]
  unfold Engine.changeProcess
  cases hr : e.refusal? ev.targetUid ev.pid with
  | some x => rfl
  | none =>
    obtain ⟨p, hp, -⟩ := h.tracks_of_refusal? hr
    have hpid : { p.respond ev.reason (e.bindingFor ev) with
        boost := (e.tokenFor ev.reason).map fun n => ⟨n, ev.reason⟩ }.pid = ev.pid :=
      (p.respond_ids ev.reason (e.bindingFor ev)).1.trans (h.pid_eq hp)
    simp only [hp, conclude]
    rw [lifecycle_putProcess _ hpid]
    unfold Lifecycle.change
    rw [lifecycle_process?, hp, lifecycle_bindingFor, lifecycle_tokenFor, Option.map_some]
    simp only [← p.unpriced_respond]
    rfl

theorem lifecycle_expired? (e : Engine) (pid : Int) (token : Nat) :
    e.lifecycle.expired? pid token = ((e.processes.get? pid).bind fun p =>
      ((p.boost.filter fun b => b.token == token).bind fun b => b.reason.undo?).map fun reason =>
        ({ p with boost := none }.respond reason none).unpriced) := by
  unfold Lifecycle.expired?
  rw [lifecycle_process?]
  cases e.processes.get? pid with
  | none => rfl
  | some p =>
    simp only [Option.map_some, Option.bind_some, TrackedProcess.unpriced_respond]
    rfl

theorem Sound.lifecycle_expireBoost (h : e.Sound) (pid : Int) (token : Nat) :
    (e.expireBoost pid token).1.lifecycle = e.lifecycle.expire pid token := by
  unfold Lifecycle.expire Engine.expireBoost
  rw [lifecycle_expired?]
  cases hp : e.processes.get? pid with
  | none => rfl
  | some p =>
    simp only [Option.bind_some]
    cases hundo : p.boost.filter (fun b => b.token == token) |>.bind fun b => b.reason.undo? with
    | none => rfl
    | some reason =>
      have hpid : ({ p with boost := none }.respond reason none).pid = pid :=
        ({ p with boost := none }.respond_ids reason none).1.trans (show p.pid = pid from h.pid_eq hp)
      simp only [conclude, lifecycle_putProcess _ hpid, Option.map_some]

theorem lifecycle_noteKilled (e : Engine) (uid : Int) :
    (e.noteKilled uid).1.lifecycle = e.lifecycle.mark uid := by
  unfold noteKilled Lifecycle.mark Table.adjust
  rw [lifecycle_bundle?]
  cases e.bundles.get? uid with
  | none => rfl
  | some b =>
    unfold lifecycle
    simp only [Table.map_insert]
    rfl

theorem Sound.lifecycle_update (h : e.Sound) (ev : Event) :
    (e.update ev).1.lifecycle = e.lifecycle.update e.settings.policy ev := by
  rcases ev.reason.structural_cases with hr | hr | hr | hr | hr
  · rw [update_of_change hr, h.lifecycle_changeProcess ev, Lifecycle.update_of_change hr]
  · rw [update_of_create hr, Lifecycle.update_of_create hr]
    by_cases htr : e.Tracks ev.targetUid ev.pid
    · rw [track_of_tracks htr, if_pos (lifecycle_tracks_iff.mpr htr)]
    · have hset := (dropProcess_terms e ev.pid {}).settings
      rw [track_of_not_tracks htr, if_neg (fun hl => htr (lifecycle_tracks_iff.mp hl))]
      simp only [conclude]
      rw [lifecycle_addProcess, h.lifecycle_dropProcess, hset]
  · rw [update_of_ready hr, noteReady_fst, Lifecycle.update_of_ready hr]
  · rw [update_of_terminate hr, Lifecycle.update_of_terminate hr]
    by_cases htr : e.Tracks ev.targetUid ev.pid
    · rw [untrack_of_tracks htr, if_pos (lifecycle_tracks_iff.mpr htr)]
      exact h.lifecycle_dropProcess ev.pid {}
    · rw [untrack_refused (untrack_error_iff.mpr ⟨htr, rfl⟩),
        if_neg (fun hl => htr (lifecycle_tracks_iff.mp hl))]
  · rw [update_of_switch hr, lifecycle_switchTo, Lifecycle.update_of_switch hr]

theorem Sound.lifecycle_after (h : e.Sound) (r : Request) :
    (e.after r).lifecycle = e.lifecycle.after e.settings.policy r := by
  cases r with
  | event ev => exact h.lifecycle_update ev
  | switchTo account => exact lifecycle_switchTo e account
  | expireBoost pid token => exact h.lifecycle_expireBoost pid token
  | noteKilled uid => exact lifecycle_noteKilled e uid
  | retain live =>
    have hkeys : e.lifecycle.processes.keys = e.processes.keys := Table.keys_map _ _
    unfold Lifecycle.after Lifecycle.retain
    rw [hkeys]
    exact Sound.lifecycle_foldl_dropProcess _ (s := (e, {})) h

theorem Sound.lifecycle_after_process? (h : e.Sound) {r : Request}
    (hp : (e.after r).processes.get? pid = some p) :
    (e.lifecycle.after e.settings.policy r).processes.get? pid = some p.unpriced := by
  rw [← h.lifecycle_after, lifecycle_process?, hp]
  rfl

theorem Sound.lifecycle_after_bundle? (h : e.Sound) {r : Request}
    (hb : (e.after r).bundles.get? uid = some b) :
    (e.lifecycle.after e.settings.policy r).bundles.get? uid = some b.unpriced := by
  rw [← h.lifecycle_after, lifecycle_bundle?, hb]
  rfl

end Engine

end MemoryArbiter
