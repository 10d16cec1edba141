import MemoryArbiter.Proofs.Engine.History

/-! # What the engine refuses

An event is refused for what the tables say about its uid and pid, or about the current account,
and for nothing else.  The code also returns errors late, after it has changed a table or taken a
token; in a sound engine it does not get there, so that a refused step leaves no trace.
-/

namespace MemoryArbiter

namespace Engine

variable {e : Engine} {ev : Event} {x : Rejection}

/-- The event `ev` is to be refused with `x`.  There is no case for a process that is created. -/
inductive Refuses (e : Engine) (ev : Event) : Rejection → Prop
  | untracked (hr : ev.reason = .processTerminated) (h : ¬ e.Tracks ev.targetUid ev.pid) :
    Refuses e ev (.unknownProcess ev.pid ev.targetUid)
  | sameAccount (hr : ev.reason = .osAccountChanged)
    (h : e.current = some (accountOf ev.targetUid)) :
    Refuses e ev (.accountUnchanged (accountOf ev.targetUid))
  | noBundle (hr : ev.reason.structural = false ∨ ev.reason = .processReady)
    (h : e.bundles.get? ev.targetUid = none) : Refuses e ev (.unknownBundle ev.targetUid)
  | notMember (hr : ev.reason.structural = false ∨ ev.reason = .processReady) (b : Bundle)
    (h : e.bundles.get? ev.targetUid = some b) (hpid : ev.pid ∉ b.pids) :
    Refuses e ev (.unknownProcess ev.pid ev.targetUid)
  | pinned (hr : ev.reason.structural = false ∨ ev.reason = .processReady) (b : Bundle)
    (h : e.bundles.get? ev.targetUid = some b) (hpid : ev.pid ∈ b.pids) (hpin : b.pinned = true) :
    Refuses e ev (.pinnedBundle ev.targetUid b.name)

/-! ### Reason by reason -/

theorem not_refuses_create (hr : ev.reason = .createProcess) : ¬ e.Refuses ev x := by
  rintro (⟨h, -⟩ | ⟨h, -⟩ | ⟨h, -⟩ | ⟨h, -⟩ | ⟨h, -⟩) <;> simp [hr, Reason.structural] at h

theorem refuses_terminate_iff (hr : ev.reason = .processTerminated) : e.Refuses ev x ↔
    ¬ e.Tracks ev.targetUid ev.pid ∧ x = .unknownProcess ev.pid ev.targetUid := by
  constructor
  · rintro (⟨-, h⟩ | ⟨h, -⟩ | ⟨h, -⟩ | ⟨h, -⟩ | ⟨h, -⟩)
    · exact ⟨h, rfl⟩
    all_goals simp [hr, Reason.structural] at h
  · rintro ⟨h, rfl⟩
    exact .untracked hr h

theorem refuses_switch_iff (hr : ev.reason = .osAccountChanged) : e.Refuses ev x ↔
    e.current = some (accountOf ev.targetUid) ∧ x = .accountUnchanged (accountOf ev.targetUid) := by
  constructor
  · rintro (⟨h, -⟩ | ⟨-, h⟩ | ⟨h, -⟩ | ⟨h, -⟩ | ⟨h, -⟩)
    · simp [hr] at h
    · exact ⟨h, rfl⟩
    all_goals simp [hr, Reason.structural] at h
  · rintro ⟨h, rfl⟩
    exact .sameAccount hr h

theorem refuses_change_iff (hr : ev.reason.structural = false ∨ ev.reason = .processReady) :
    e.Refuses ev x ↔ e.refusal? ev.targetUid ev.pid = some x := by
  have hterm : ev.reason ≠ .processTerminated := by
    rintro h
    simp [h, Reason.structural] at hr
  have hswitch : ev.reason ≠ .osAccountChanged := by
    rintro h
    simp [h, Reason.structural] at hr
  unfold refusal?
  constructor
  · rintro (⟨h, -⟩ | ⟨h, -⟩ | ⟨-, hb⟩ | ⟨-, b, hb, hpid⟩ | ⟨-, b, hb, hpid, hpin⟩)
    · exact absurd h hterm
    · exact absurd h hswitch
    · simp [hb]
    · simp [hb, hpid]
    · simp [hb, hpid, hpin]
  · intro h
    cases hb : e.bundles.get? ev.targetUid with
    | none =>
      simp only [hb, Option.some.injEq] at h
      exact h ▸ .noBundle hr hb
    | some b =>
      simp only [hb] at h
      by_cases hpid : ev.pid ∈ b.pids
      · by_cases hpin : b.pinned = true
        · simp [hpid, hpin] at h
          exact h ▸ .pinned hr b hb hpid hpin
        · simp [hpid, hpin] at h
      · simp [hpid] at h
        exact h ▸ .notMember hr b hb hpid

/-! ### The steps -/

theorem any_uid_iff :
    ((e.processes.get? ev.pid).any fun p => p.uid = ev.targetUid) = true ↔
      e.Tracks ev.targetUid ev.pid := by
  unfold Tracks
  cases e.processes.get? ev.pid <;> simp

theorem untrack_of_tracks (htr : e.Tracks ev.targetUid ev.pid) :
    e.untrack ev = conclude (e.dropProcess ev.pid {}) := by
  unfold untrack
  rw [if_pos (any_uid_iff.mpr htr)]

theorem untrack_error_iff : (e.untrack ev).2 = .error x ↔
    ¬ e.Tracks ev.targetUid ev.pid ∧ x = .unknownProcess ev.pid ev.targetUid := by
  by_cases htr : e.Tracks ev.targetUid ev.pid
  · rw [untrack_of_tracks htr]
    simp [htr, conclude]
  · unfold untrack
    rw [if_neg (fun h => htr (any_uid_iff.mp h))]
    simp [htr, eq_comm]

theorem switchTo_error_iff {account : Int} : (e.switchTo account).2 = .error x ↔
    e.current = some account ∧ x = .accountUnchanged account := by
  unfold switchTo
  split
  · next h => simp [h, eq_comm]
  · next h => simp [h, conclude]

theorem noteReady_error_iff :
    (e.noteReady ev).2 = .error x ↔ e.refusal? ev.targetUid ev.pid = some x := by
  unfold noteReady
  cases e.refusal? ev.targetUid ev.pid <;> simp

theorem Sound.update_error_iff (h : e.Sound) : (e.update ev).2 = .error x ↔ e.Refuses ev x := by
  cases hs : ev.reason.structural with
  | false =>
    rw [update_of_change hs, refuses_change_iff (.inl hs)]
    exact h.changeProcess_error_iff
  | true =>
    have hcases : ev.reason = .createProcess ∨ ev.reason = .processTerminated ∨
        ev.reason = .osAccountChanged ∨ ev.reason = .processReady := by
      cases hr : ev.reason <;> simp_all [Reason.structural]
    obtain hr | hr | hr | hr := hcases
    · obtain ⟨report, hok⟩ := e.track_ok ev
      refine iff_of_false ?_ (not_refuses_create hr)
      rw [update_of_create hr, hok]
      simp
    · rw [update_of_terminate hr, refuses_terminate_iff hr]
      exact untrack_error_iff
    · rw [update_of_switch hr, refuses_switch_iff hr]
      exact switchTo_error_iff
    · rw [update_of_ready hr, refuses_change_iff (.inr hr)]
      exact noteReady_error_iff

/-! ### In every run -/

/-- What is refused is exactly what is to be refused, and it is refused whole. -/
structure RefusesExactly (e : Engine) : Prop where
  created : ∀ ev : Event, ev.reason = .createProcess → ∃ report, (e.update ev).2 = .ok report
  update : ∀ ev x, (e.update ev).2 = .error x ↔ e.Refuses ev x
  update_unchanged : ∀ ev x, (e.update ev).2 = .error x → (e.update ev).1 = e
  switchTo_unchanged : ∀ account x,
    (e.switchTo account).2 = .error x → (e.switchTo account).1 = e
  expireBoost_unchanged : ∀ pid token x,
    (e.expireBoost pid token).2 = .error x → (e.expireBoost pid token).1 = e

theorem Sound.refusesExactly (h : e.Sound) : e.RefusesExactly where
  created ev hr := by
    rw [update_of_create hr]
    exact e.track_ok ev
  update _ _ := h.update_error_iff
  update_unchanged _ _ := h.update_refused
  switchTo_unchanged _ _ := switchTo_refused
  expireBoost_unchanged _ _ _ := expireBoost_refused

theorem run_refusesExactly (settings : Settings) (requests : List Request) :
    (run settings requests).RefusesExactly :=
  (run_sound settings requests).refusesExactly

end Engine

end MemoryArbiter
