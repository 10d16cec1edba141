import MemoryArbiter.Proofs.Engine.History
import MemoryArbiter.Proofs.Lifecycle.Basic

/-! # Where a record comes from

A process or a bundle that is there after a step was there before it, or a new process brought
it in.  What the step can have done to it is listed here once, so that an invariant of one record
is proved by cases on its origin.
-/

namespace MemoryArbiter

namespace Lifecycle

variable {l : Lifecycle} {policy : Policy} {r : Request} {ev : Event} {uid pid qid : Int}
  {p q : TrackedProcess} {b c : Bundle}

/-- How `p` came to be the process `pid` by the step `r` from `l`. -/
inductive ProcessOrigin (policy : Policy) (l : Lifecycle) (r : Request) (pid : Int) :
    TrackedProcess → Prop
  | kept (p : TrackedProcess) (before : l.processes.get? pid = some p) :
    ProcessOrigin policy l r pid p
  | started (ev : Event) (asked : r = .event ev) (reason : ev.reason = .createProcess)
    (same : ev.pid = pid) (new : l.tracks ev.targetUid pid = false) :
    ProcessOrigin policy l r pid (TrackedProcess.start pid ev.targetUid
      (if (l.bundleFor policy ev).pinned then Level.system else Level.foreground)).unpriced
  | changed (ev : Event) (asked : r = .event ev) (reason : ev.reason.structural = false)
    (same : ev.pid = pid) (allowed : l.refusal? ev.targetUid pid = none) (q : TrackedProcess)
    (before : l.processes.get? pid = some q) (boost : Option Boost) :
    ProcessOrigin policy l r pid { q.respond ev.reason (l.bindingFor ev) with boost := boost }
  | expired (token : Nat) (asked : r = .expireBoost pid token) (q : TrackedProcess)
    (before : l.processes.get? pid = some q) (boost : Boost) (waiting : q.boost = some boost)
    (reason : Reason) (undo : boost.reason.undo? = some reason) :
    ProcessOrigin policy l r pid ({ q with boost := none }.respond reason none)

/-- How `b` came to be the bundle `uid`. -/
inductive BundleOrigin (policy : Policy) (l : Lifecycle) (r : Request) (uid : Int) : Bundle → Prop
  | kept (b c : Bundle) (before : l.bundles.get? uid = some c) (name : b.name = c.name)
    (state : b.state = c.state) (pinned : b.pinned = c.pinned) : BundleOrigin policy l r uid b
  | marked (c : Bundle) (before : l.bundles.get? uid = some c) (asked : r = .noteKilled uid) :
    BundleOrigin policy l r uid { c with state := .waitingForKill }
  | joined (ev : Event) (asked : r = .event ev) (reason : ev.reason = .createProcess)
    (same : ev.targetUid = uid) (new : l.tracks uid ev.pid = false) :
    BundleOrigin policy l r uid { l.bundleFor policy ev with
      state := .normal
      pids := (l.bundleFor policy ev).pids.insert ev.pid }

/-! ### Taking processes out -/

theorem process?_drop (h : (l.drop pid).processes.get? qid = some q) :
    l.processes.get? qid = some q := by
  unfold drop at h
  cases hp : l.processes.get? pid with
  | none =>
    rw [hp] at h
    exact h
  | some p =>
    simp only [hp, Table.get?_erase] at h
    split at h
    · cases h
    · exact h

theorem process?_foldl_drop (pids : List Int) (h : (pids.foldl drop l).processes.get? qid = some q) :
    l.processes.get? qid = some q := by
  induction pids generalizing l with
  | nil => exact h
  | cons pid pids ih => exact process?_drop (ih h)

theorem bundle?_drop_of_ne (h : ∀ p, l.processes.get? pid = some p → p.uid ≠ uid) :
    (l.drop pid).bundles.get? uid = l.bundles.get? uid := by
  unfold drop
  cases hp : l.processes.get? pid with
  | none => rfl
  | some p => exact (Table.get?_assign _ _ _ _).trans (if_neg (h p hp))

/-- What is left of a bundle has kept its name, its state and its pin. -/
theorem bundle?_drop (h : (l.drop pid).bundles.get? uid = some b) :
    ∃ c, l.bundles.get? uid = some c ∧ b.name = c.name ∧ b.state = c.state ∧
      b.pinned = c.pinned := by
  by_cases hu : ∀ p, l.processes.get? pid = some p → p.uid ≠ uid
  · rw [bundle?_drop_of_ne hu] at h
    exact ⟨b, h, rfl, rfl, rfl⟩
  · obtain ⟨p, hp, hpu⟩ : ∃ p, l.processes.get? pid = some p ∧ p.uid = uid := by
      simpa using hu
    subst hpu
    have hrest : l.rest p.uid pid = some b := by
      unfold drop at h
      simpa only [hp, Table.get?_assign, if_true] using h
    unfold rest at hrest
    obtain ⟨hmap, -⟩ := Option.filter_eq_some_iff.mp hrest
    obtain ⟨c, hc, rfl⟩ := Option.map_eq_some_iff.mp hmap
    exact ⟨c, hc, rfl, rfl, rfl⟩

theorem bundle?_foldl_drop (pids : List Int) (h : (pids.foldl drop l).bundles.get? uid = some b) :
    ∃ c, l.bundles.get? uid = some c ∧ b.name = c.name ∧ b.state = c.state ∧
      b.pinned = c.pinned := by
  induction pids generalizing l with
  | nil => exact ⟨b, h, rfl, rfl, rfl⟩
  | cons pid pids ih =>
    obtain ⟨d, hd, hname, hstate, hpin⟩ := ih h
    obtain ⟨c, hc, hname', hstate', hpin'⟩ := bundle?_drop hd
    exact ⟨c, hc, hname.trans hname', hstate.trans hstate', hpin.trans hpin'⟩

theorem ne_of_not_tracks (h : l.tracks uid pid = false) (p : TrackedProcess)
    (hp : l.processes.get? pid = some p) : p.uid ≠ uid := by
  rintro rfl
  unfold tracks at h
  simp [hp] at h

/-! ### Processes -/

theorem bundleFor_drop (new : l.tracks ev.targetUid ev.pid = false) :
    (l.drop ev.pid).bundleFor policy ev = l.bundleFor policy ev := by
  unfold bundleFor
  rw [bundle?_drop_of_ne (ne_of_not_tracks new)]

theorem process?_track (hr : ev.reason = .createProcess)
    (h : (l.update policy ev).processes.get? pid = some p) :
    ProcessOrigin policy l (.event ev) pid p := by
  rw [update_of_create hr] at h
  by_cases htr : l.tracks ev.targetUid ev.pid = true
  · rw [if_pos htr] at h
    exact .kept p h
  · have hnew := Bool.eq_false_iff.mpr htr
    rw [if_neg htr] at h
    unfold add at h
    simp only [Table.get?_insert, bundleFor_drop hnew] at h
    split at h
    · next hpid =>
      rw [← Option.some.inj h]
      subst hpid
      exact .started ev rfl hr rfl hnew
    · exact .kept p (process?_drop h)

theorem process?_change (hr : ev.reason.structural = false)
    (h : (l.update policy ev).processes.get? pid = some p) :
    ProcessOrigin policy l (.event ev) pid p := by
  rw [update_of_change hr] at h
  cases hno : l.refusal? ev.targetUid ev.pid with
  | some x =>
    rw [hno, if_pos (by simp)] at h
    exact .kept p h
  | none =>
    rw [hno, if_neg (by simp)] at h
    unfold change at h
    cases hq : l.processes.get? ev.pid with
    | none =>
      rw [hq] at h
      exact .kept p h
    | some q =>
      simp only [hq, Table.get?_insert] at h
      split at h
      · next hpid =>
        rw [← Option.some.inj h]
        subst hpid
        exact .changed ev rfl hr rfl hno q hq _
      · exact .kept p h

theorem process?_expire {token : Nat} (h : (l.expire qid token).processes.get? pid = some p) :
    ProcessOrigin policy l (.expireBoost qid token) pid p := by
  unfold expire at h
  cases hx : l.expired? qid token with
  | none =>
    rw [hx] at h
    exact .kept p h
  | some q =>
    simp only [hx, Table.get?_insert] at h
    split at h
    · next hpid =>
      subst hpid
      rw [← Option.some.inj h]
      unfold expired? at hx
      obtain ⟨q₀, hq₀, hx⟩ := Option.bind_eq_some_iff.mp hx
      obtain ⟨reason, hreason, rfl⟩ := Option.map_eq_some_iff.mp hx
      obtain ⟨boost, hboost, hundo⟩ := Option.bind_eq_some_iff.mp hreason
      obtain ⟨hwaiting, -⟩ := Option.filter_eq_some_iff.mp hboost
      exact .expired token rfl q₀ hq₀ boost hwaiting reason hundo
    · exact .kept p h

theorem process?_after (h : (l.after policy r).processes.get? pid = some p) :
    ProcessOrigin policy l r pid p := by
  cases r with
  | event ev =>
    have h' : (l.update policy ev).processes.get? pid = some p := h
    rcases ev.reason.structural_cases with hr | hr | hr | hr | hr
    · exact process?_change hr h'
    · exact process?_track hr h'
    · rw [update_of_ready hr] at h'
      exact .kept p h'
    · rw [update_of_terminate hr] at h'
      split at h'
      · exact .kept p (process?_drop h')
      · exact .kept p h'
    · rw [update_of_switch hr] at h'
      exact .kept p h'
  | switchTo account => exact .kept p h
  | expireBoost qid token => exact process?_expire h
  | noteKilled uid => exact .kept p h
  | retain live => exact .kept p (process?_foldl_drop _ h)

/-! ### Bundles -/

theorem BundleOrigin.of_before (h : ∃ c, l.bundles.get? uid = some c ∧ b.name = c.name ∧
    b.state = c.state ∧ b.pinned = c.pinned) : BundleOrigin policy l r uid b := by
  obtain ⟨c, hc, hname, hstate, hpin⟩ := h
  exact .kept b c hc hname hstate hpin

theorem BundleOrigin.same (h : l.bundles.get? uid = some b) : BundleOrigin policy l r uid b :=
  .kept b b h rfl rfl rfl

theorem bundle?_track (hr : ev.reason = .createProcess)
    (h : (l.update policy ev).bundles.get? uid = some b) :
    BundleOrigin policy l (.event ev) uid b := by
  rw [update_of_create hr] at h
  by_cases htr : l.tracks ev.targetUid ev.pid = true
  · rw [if_pos htr] at h
    exact .same h
  · have hnew := Bool.eq_false_iff.mpr htr
    rw [if_neg htr] at h
    unfold add at h
    simp only [Table.get?_insert, bundleFor_drop hnew] at h
    split at h
    · next huid =>
      rw [← Option.some.inj h]
      subst huid
      exact .joined ev rfl hr rfl hnew
    · exact .of_before (bundle?_drop h)

theorem bundles_change (l : Lifecycle) (policy : Policy) (ev : Event) :
    (l.change policy ev).bundles = l.bundles := by
  unfold change
  split <;> rfl

theorem bundles_expire (l : Lifecycle) (pid : Int) (token : Nat) :
    (l.expire pid token).bundles = l.bundles := by
  unfold expire
  split <;> rfl

theorem bundle?_mark {marked : Int} (h : (l.mark marked).bundles.get? uid = some b) :
    BundleOrigin policy l (.noteKilled marked) uid b := by
  unfold mark at h
  rw [Table.get?_adjust] at h
  split at h
  · next huid =>
    subst huid
    obtain ⟨c, hc, rfl⟩ := Option.map_eq_some_iff.mp h
    exact .marked c hc rfl
  · exact .same h

theorem bundle?_after (h : (l.after policy r).bundles.get? uid = some b) :
    BundleOrigin policy l r uid b := by
  cases r with
  | event ev =>
    have h' : (l.update policy ev).bundles.get? uid = some b := h
    rcases ev.reason.structural_cases with hr | hr | hr | hr | hr
    · rw [update_of_change hr] at h'
      split at h'
      · exact .same h'
      · rw [bundles_change] at h'
        exact .same h'
    · exact bundle?_track hr h'
    · rw [update_of_ready hr] at h'
      exact .same h'
    · rw [update_of_terminate hr] at h'
      split at h'
      · exact .of_before (bundle?_drop h')
      · exact .same h'
    · rw [update_of_switch hr] at h'
      exact .same h'
  | switchTo account => exact .same h
  | expireBoost pid token =>
    have h' : (l.expire pid token).bundles.get? uid = some b := h
    rw [bundles_expire] at h'
    exact .same h'
  | noteKilled marked => exact bundle?_mark h
  | retain live => exact .of_before (bundle?_foldl_drop _ h)

/-- A bundle is pinned for as long as it is there, or never. -/
theorem pinned_after (hc : l.bundles.get? uid = some c)
    (hb : (l.after policy r).bundles.get? uid = some b) : b.pinned = c.pinned := by
  cases bundle?_after hb with
  | kept _ d hd hname hstate hpin =>
    rw [hpin, Option.some.inj (hd.symm.trans hc)]
  | marked d hd => rw [Option.some.inj (hd.symm.trans hc)]
  | joined ev hr hreason huid hnew =>
    subst huid
    unfold bundleFor
    rw [hc]
    rfl

theorem pinned_after_event
    (hb : (l.after policy (.event ev)).bundles.get? ev.targetUid = some b) :
    b.pinned = (l.bundleFor policy ev).pinned := by
  cases hc : l.bundles.get? ev.targetUid with
  | some c =>
    rw [pinned_after hc hb]
    unfold bundleFor
    rw [hc]
    rfl
  | none =>
    cases bundle?_after hb with
    | kept _ c hc' => exact nomatch hc'.symm.trans hc
    | marked c hc' => exact nomatch hc'.symm.trans hc
    | joined ev' hr' => cases hr'; rfl

end Lifecycle

end MemoryArbiter
