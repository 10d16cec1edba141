import MemoryArbiter.Proofs.Lifecycle.Origins
import MemoryArbiter.Proofs.Lifecycle.Projection

/-! # Spent bundles

A bundle is spent when a pass has nothing left to kill in it: it waits for the end of its processes,
or it is gone.  It stays so, whatever is asked of the engine, until a new process joins it.
-/

namespace MemoryArbiter

namespace Lifecycle

theorem bundle?_joined {l : Lifecycle} {ev : Event} (policy : Policy)
    (hr : ev.reason = .createProcess) (hnew : l.tracks ev.targetUid ev.pid = false) :
    (l.after policy (.event ev)).bundles.get? ev.targetUid = some { l.bundleFor policy ev with
      state := .normal
      pids := (l.bundleFor policy ev).pids.insert ev.pid } := by
  show (l.update policy ev).bundles.get? ev.targetUid = _
  rw [update_of_create hr, if_neg (Bool.eq_false_iff.mp hnew)]
  unfold add
  simp only [Table.get?_insert_self, bundleFor_drop hnew]

end Lifecycle

namespace Engine

def Spent (e : Engine) (uid : Int) : Prop :=
  ∀ b, e.bundles.get? uid = some b → b.state = .waitingForKill

/-- In `e` the request `r` is a creation that is accepted and adds a process to the bundle `uid`. -/
structure Adds (e : Engine) (r : Request) (uid : Int) : Prop where
  accepted : e.Accepts r
  created : ∃ ev b, r = .event ev ∧ ev.reason = .createProcess ∧ ev.targetUid = uid ∧
    ¬ e.Tracks uid ev.pid ∧ (e.after r).bundles.get? uid = some b ∧ ev.pid ∈ b.pids

variable {e : Engine} {r : Request} {ev : Event} {uid : Int} {b : Bundle}

theorem accepts_create (hr : ev.reason = .createProcess) :
    e.Accepts (.event ev) := by
  have hstep : e.step (.event ev) = e.track ev := update_of_create hr
  unfold Accepts
  rw [hstep]
  exact e.track_ok ev

/-! ### The state of a bundle after one request -/

theorem Sound.joined (h : e.Sound) (hr : ev.reason = .createProcess)
    (hnew : ¬ e.Tracks ev.targetUid ev.pid) :
    ∃ b, (e.after (.event ev)).bundles.get? ev.targetUid = some b ∧ b.state = .normal ∧
      ev.pid ∈ b.pids := by
  have htracks : e.lifecycle.tracks ev.targetUid ev.pid = false := by
    rw [← Bool.not_eq_true, lifecycle_tracks_iff]
    exact hnew
  have hjoined := Lifecycle.bundle?_joined e.settings.policy hr htracks
  rw [← h.lifecycle_after, lifecycle_bundle?] at hjoined
  obtain ⟨b, hb, hbundle⟩ := Option.map_eq_some_iff.mp hjoined
  refine ⟨b, hb, congrArg Bundle.state hbundle, ?_⟩
  have hpids := congrArg Bundle.pids hbundle
  show ev.pid ∈ b.unpriced.pids
  rw [hpids]
  exact IdSet.mem_insert.mpr (.inl rfl)

theorem Sound.adds_create (h : e.Sound) (hr : ev.reason = .createProcess)
    (hnew : ¬ e.Tracks ev.targetUid ev.pid) : e.Adds (.event ev) ev.targetUid := by
  obtain ⟨b, hb, -, hpid⟩ := h.joined hr hnew
  exact ⟨accepts_create hr, ev, b, rfl, hr, rfl, hnew, hb, hpid⟩

theorem Adds.state (hadds : e.Adds r uid) (h : e.Sound)
    (hb : (e.after r).bundles.get? uid = some b) : b.state = .normal := by
  obtain ⟨ev, -, rfl, hr, rfl, hnew, -⟩ := hadds.created
  obtain ⟨c, hc, hstate, -⟩ := h.joined hr hnew
  rw [Option.some.inj (hb.symm.trans hc), hstate]

theorem noteKilled_bundle? (e : Engine) (uid u : Int) : (e.noteKilled uid).1.bundles.get? u =
    (e.bundles.get? u).map fun b => if uid = u then { b with state := .waitingForKill } else b := by
  unfold noteKilled
  cases hb : e.bundles.get? uid with
  | none =>
    by_cases hu : uid = u
    · subst hu
      simp [hb]
    · simp [hu]
  | some b =>
    by_cases hu : uid = u
    · subst hu
      simp [hb]
    · simp [Table.get?_insert, hu]

theorem noteKilled_snd (e : Engine) (uid : Int) :
    (e.noteKilled uid).2 = (e.bundles.get? uid).isSome := by
  unfold noteKilled
  cases e.bundles.get? uid <;> rfl

theorem bundle?_noteKilled_self (hb : (e.after (.noteKilled uid)).bundles.get? uid = some b) :
    b.state = .waitingForKill ∧ ∃ c, e.bundles.get? uid = some c := by
  have hb' : (e.noteKilled uid).1.bundles.get? uid = some b := hb
  rw [noteKilled_bundle?] at hb'
  obtain ⟨c, hc, rfl⟩ := Option.map_eq_some_iff.mp hb'
  rw [if_pos rfl]
  exact ⟨rfl, c, hc⟩

theorem Sound.state_kept (h : e.Sound) (hb : (e.after r).bundles.get? uid = some b)
    (hadds : ¬ e.Adds r uid) (hmark : r ≠ .noteKilled uid) :
    ∃ c, e.bundles.get? uid = some c ∧ b.state = c.state := by
  have horigin := Lifecycle.bundle?_after (h.lifecycle_after_bundle? hb)
  have hstate : b.unpriced.state = b.state := rfl
  rw [← hstate]
  generalize b.unpriced = l at horigin
  cases horigin with
  | kept _ d hd hname hsame =>
    rw [lifecycle_bundle?] at hd
    obtain ⟨c, hc, rfl⟩ := Option.map_eq_some_iff.mp hd
    exact ⟨c, hc, hsame⟩
  | marked d hd hasked => exact absurd hasked hmark
  -- only a creation takes a bundle back to its normal state
  | joined ev hasked hr huid hnew =>
    subst hasked huid
    refine absurd (h.adds_create hr ?_) hadds
    rw [← lifecycle_tracks_iff, hnew]
    exact Bool.false_ne_true

theorem Sound.spent_after (h : e.Sound) (hspent : e.Spent uid) (r : Request) :
    (e.after r).Spent uid ∨ e.Adds r uid := by
  by_cases hadds : e.Adds r uid
  · exact .inr hadds
  refine .inl fun b hb => ?_
  by_cases hmark : r = .noteKilled uid
  · subst hmark
    exact (bundle?_noteKilled_self hb).1
  · obtain ⟨c, hc, hstate⟩ := h.state_kept hb hadds hmark
    rw [hstate, hspent c hc]

/-! ### Marking several bundles -/

def marked (e : Engine) (uids : List Int) : Engine :=
  uids.foldl (fun e uid => (e.noteKilled uid).1) e

theorem Sound.marked (h : e.Sound) (uids : List Int) : (e.marked uids).Sound := by
  induction uids generalizing e with
  | nil => exact h
  | cons uid uids ih => exact ih (h.noteKilled uid)

theorem marked_bundle? (e : Engine) (uids : List Int) (u : Int) : (e.marked uids).bundles.get? u =
    (e.bundles.get? u).map fun b => if u ∈ uids then { b with state := .waitingForKill } else b := by
  induction uids generalizing e with
  | nil => simp [Engine.marked]
  | cons uid uids ih =>
    have hstep : e.marked (uid :: uids) = (e.noteKilled uid).1.marked uids := rfl
    rw [hstep, ih, noteKilled_bundle?, Option.map_map]
    congr 1
    funext b
    by_cases hu : uid = u
    · subst hu
      simp
    · simp [hu, Ne.symm hu]

theorem marked_processes (e : Engine) (uids : List Int) :
    (e.marked uids).processes = e.processes := by
  induction uids generalizing e with
  | nil => rfl
  | cons uid uids ih => exact (ih (e.noteKilled uid).1).trans (noteKilled_processes e uid)

theorem spent_marked (hspent : e.Spent uid) (uids : List Int) : (e.marked uids).Spent uid := by
  intro b hb
  rw [marked_bundle?] at hb
  obtain ⟨c, hc, rfl⟩ := Option.map_eq_some_iff.mp hb
  split
  · rfl
  · exact hspent c hc

theorem waiting_marked {uids : List Int} (hu : uid ∈ uids) (hb : e.bundles.get? uid = some b) :
    (e.marked uids).bundles.get? uid = some { b with state := .waitingForKill } := by
  rw [marked_bundle?, hb, Option.map_some, if_pos hu]

theorem pinned_of_marked {uids : List Int} (hb : (e.marked uids).bundles.get? uid = some b) :
    ∃ c, e.bundles.get? uid = some c ∧ c.pinned = b.pinned := by
  rw [marked_bundle?] at hb
  obtain ⟨c, hc, rfl⟩ := Option.map_eq_some_iff.mp hb
  refine ⟨c, hc, ?_⟩
  split <;> rfl

end Engine

end MemoryArbiter
