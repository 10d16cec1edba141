import MemoryArbiter.Proofs.Engine.Commutation
import MemoryArbiter.Proofs.Index.Order

/-! # What an event leaves alone

An event recomputes whole bundles and may take an account away and make it anew.  Still it confines
itself to its own process, to the two bundles that it touches and to their accounts.  Of the pinned
bundles it touches none, unless a process starts there or ends.
-/

namespace MemoryArbiter

namespace Engine

variable {e : Engine} {ev : Event} {uid pid : Int} {b : Bundle}

/-- The event `ev`, which is no account switch, leaves everything else alone. -/
structure Confined (e : Engine) (ev : Event) : Prop where
  process : ∀ pid, pid ≠ ev.pid →
    (e.after (.event ev)).processes.get? pid = e.processes.get? pid
  bundle : ∀ uid, ¬ e.Touches ev uid →
    (e.after (.event ev)).bundles.get? uid = e.bundles.get? uid
  rank : ∀ uid, ¬ e.Touches ev uid →
    (e.after (.event ev)).index.get? uid = e.index.get? uid
  account : ∀ id, (∀ uid, e.Touches ev uid → accountOf uid ≠ id) →
    (e.after (.event ev)).accounts.get? id = e.accounts.get? id
  order : ∀ keep : Int → Bool, (∀ uid, keep uid = true → ¬ e.Touches ev uid) →
    (e.after (.event ev)).index.orderOf keep = e.index.orderOf keep
  current : (e.after (.event ev)).current = e.current
  previous : (e.after (.event ev)).previous = e.previous
  stable : ∀ uid b c, e.bundles.get? uid = some b →
    (e.after (.event ev)).bundles.get? uid = some c →
    c.name = b.name ∧ c.account = b.account ∧ c.pinned = b.pinned
  /-- An extension that is bound does not follow its caller, and neither does its bundle, unless it
  is the caller's own. -/
  bound : ∀ pid p x, e.processes.get? pid = some p → p.signals.binding = some x →
    x.caller = some ev.targetUid → pid ≠ ev.pid →
    (e.after (.event ev)).processes.get? pid = some p ∧
      (¬ e.Touches ev p.uid → e.AgreeAt (e.after (.event ev)) p.uid)

theorem Sound.pinned_after (h : e.Sound) {r : Request} {c : Bundle}
    (hb : e.bundles.get? uid = some b) (hc : (e.after r).bundles.get? uid = some c) :
    c.pinned = b.pinned := by
  have hbefore : e.lifecycle.bundles.get? uid = some b.unpriced := by
    rw [lifecycle_bundle?, hb]
    rfl
  exact (Lifecycle.pinned_after hbefore (h.lifecycle_after_bundle? hc) :)

/-! ### Other processes -/

/-- Also a process of the bundle that is recomputed has its due priority already. -/
theorem Sound.process?_after_of_ne (h : e.Sound) (hstays : ev.reason ≠ .osAccountChanged)
    (hpid : pid ≠ ev.pid) :
    (e.after (.event ev)).processes.get? pid = e.processes.get? pid := by
  have h' : (e.after (.event ev)).Sound := h.after _
  have hterms : e.SameTerms (e.after (.event ev)) := update_terms hstays
  have hsame : (e.after (.event ev)).lifecycle.processes.get? pid =
      e.lifecycle.processes.get? pid := by
    rw [h.lifecycle_after]
    exact Lifecycle.update_process?_of_ne hpid
  rw [lifecycle_process?, lifecycle_process?] at hsame
  cases hp : e.processes.get? pid with
  | none =>
    rw [hp] at hsame
    exact Option.map_eq_none_iff.mp hsame
  | some p =>
    rw [hp] at hsame
    obtain ⟨q, hq, hunpriced⟩ := Option.map_eq_some_iff.mp hsame
    have huid : q.uid = p.uid := (congrArg TrackedProcess.uid hunpriced :)
    obtain ⟨-, b, hb⟩ := (h.housed p.uid).process pid p hp rfl
    obtain ⟨-, c, hc⟩ := (h'.housed p.uid).process pid q hq huid
    have hpin : c.pinned = b.pinned := h.pinned_after hb hc
    have hpriority : q.priority = p.priority := by
      rw [(h.priced p.uid).process pid p b hp rfl hb, (h'.priced p.uid).process pid q c hq huid hc,
        due_of_current hterms.settings hterms.current]
      exact due_of_unpriced hpin hunpriced
    rw [hq, TrackedProcess.eq_of_unpriced hunpriced hpriority]

/-! ### Other bundles and accounts -/

theorem Sound.account?_after (h : e.Sound) (hstays : ev.reason ≠ .osAccountChanged) {id : Int}
    (hid : ∀ uid, e.Touches ev uid → accountOf uid ≠ id) :
    (e.after (.event ev)).accounts.get? id = e.accounts.get? id := by
  apply h.enrolled.account?_congr (h.after _).enrolled (update_terms hstays)
  intro uid hu
  have hno : ¬ e.Touches ev uid := fun ht => hid uid ht hu
  exact congrArg Option.isSome (h.agreeAt_after hstays hno).bundle

theorem Sound.orderOf_after (h : e.Sound) (hstays : ev.reason ≠ .osAccountChanged)
    {keep : Int → Bool} (hkeep : ∀ uid, keep uid = true → ¬ e.Touches ev uid) :
    (e.after (.event ev)).index.orderOf keep = e.index.orderOf keep := by
  apply h.coherent.orderOf_eq (h.after (.event ev)).coherent 0
  intro uid hu
  rw [(h.agreeAt_after hstays (hkeep uid hu)).rank]
  simp

theorem Sound.confined (h : e.Sound) (hstays : ev.reason ≠ .osAccountChanged) : e.Confined ev where
  process _ hpid := h.process?_after_of_ne hstays hpid
  bundle _ hno := (h.agreeAt_after hstays hno).bundle
  rank _ hno := (h.agreeAt_after hstays hno).rank
  account _ hid := h.account?_after hstays hid
  order _ hkeep := h.orderOf_after hstays hkeep
  current := (update_terms hstays).current
  previous := (update_terms hstays).previous
  stable uid b c hb hc := by
    obtain ⟨hname, haccount⟩ := (h.tells (.event ev)).stable uid b.standing c.standing
      (standing?_of_some hb) (standing?_of_some hc)
    exact ⟨hname, haccount, h.pinned_after hb hc⟩
  bound _ _ _ hp _ _ hpid :=
    ⟨(h.process?_after_of_ne hstays hpid).trans hp, h.agreeAt_after hstays⟩

/-! ### Pinned bundles -/

/-- A change of a pinned bundle is refused, and a switch finds it where it is to be. -/
theorem Sound.agreeAt_pinned (h : e.Sound) (hb : e.bundles.get? uid = some b)
    (hpin : b.pinned = true) (hstart : ev.reason ≠ .createProcess)
    (hend : ev.reason ≠ .processTerminated) : e.AgreeAt (e.after (.event ev)) uid := by
  rcases ev.reason.structural_cases with hr | hr | hr | hr | hr
  · by_cases hacc : e.Accepts (.event ev)
    · have hallowed := (h.accepts_change_iff hr).mp hacc
      obtain ⟨c, hc, -, hfree⟩ := refusal?_eq_none hallowed
      have hne : uid ≠ ev.targetUid := by
        rintro rfl
        rw [Option.some.inj (hb.symm.trans hc), hfree] at hpin
        cases hpin
      apply h.agreeAt_after
      · intro hswitch
        rw [hswitch] at hr
        cases hr
      · exact fun ht => hne ((touches_iff_of_tracks (h.tracks_of_refusal? hallowed)).mp ht)
    · rw [h.after_of_refused hacc]
      exact AgreeAt.refl e uid
  · exact absurd hr hstart
  · have hafter : e.after (.event ev) = e := by
      show (e.update ev).1 = e
      rw [update_of_ready hr, noteReady_fst]
    rw [hafter]
    exact AgreeAt.refl e uid
  · exact absurd hr hend
  · have hl : (e.after (.event ev)).lifecycle = e.lifecycle := by
      show (e.update ev).1.lifecycle = e.lifecycle
      rw [update_of_switch hr, lifecycle_switchTo]
    exact h.agreeAt_of_pinned (h.after _) hb hpin (agreeAt_of_lifecycle hl uid)

/-- After every run, whether the event is accepted or not. -/
theorem run_confined (settings : Settings) (requests : List Request) (ev : Event) :
    (ev.reason ≠ .osAccountChanged → (run settings requests).Confined ev) ∧
      ∀ uid b, (run settings requests).bundles.get? uid = some b → b.pinned = true →
        ev.reason ≠ .createProcess → ev.reason ≠ .processTerminated →
        (run settings requests).AgreeAt ((run settings requests).after (.event ev)) uid := by
  have h := run_sound settings requests
  exact ⟨h.confined, fun _ _ hb hpin hstart hend => h.agreeAt_pinned hb hpin hstart hend⟩

/-- A reused pid empties the account 100, which is made anew, and leaves the account 101 alone. -/
theorem confined_past_reuse :
    ∃ (settings : Settings) (requests : List Request) (ev : Event),
      ev.reason ≠ .osAccountChanged ∧ (run settings requests).Confined ev ∧
      (run settings requests).snapshot.map BundleRow.uid = [20000001, 20200001] ∧
      ((run settings requests).after (.event ev)).snapshot.map BundleRow.uid =
        [20000002, 20200001] := by
  let requests : List Request :=
    [.sent .createProcess 1 20000001 none, .sent .createProcess 2 20200001 none]
  let ev : Event := { pid := 1, targetUid := 20000002, reason := .createProcess }
  have hstays : ev.reason ≠ .osAccountChanged := by decide
  refine ⟨{}, requests, ev, hstays, (run_confined {} requests ev).1 hstays, ?_⟩
  decide

end Engine

end MemoryArbiter
