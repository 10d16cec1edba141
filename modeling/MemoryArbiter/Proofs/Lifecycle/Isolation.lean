import MemoryArbiter.Proofs.Lifecycle.Projection

/-! # Account switches stay out of the lifecycle

Two runs that differ in nothing but their account switches, and two engines that differ in nothing
but what a switch works with, cannot be told apart below the priorities.  A run of the engine is a
run of its lifecycle, where the switches fall out one by one.
-/

namespace MemoryArbiter

def Request.isSwitch : Request → Bool
  | .switchTo _ => true
  | .event ev => ev.reason == .osAccountChanged
  | _ => false

namespace Lifecycle

variable {l : Lifecycle} {r : Request} {policy : Policy}

theorem after_of_isSwitch (hr : r.isSwitch = true) : l.after policy r = l := by
  cases r with
  | switchTo account => rfl
  | event ev =>
    have hreason : ev.reason = .osAccountChanged := by simpa [Request.isSwitch] using hr
    exact update_of_switch hreason
  | _ => cases hr

theorem foldl_after_filter (policy : Policy) (rs : List Request) (l : Lifecycle) :
    (rs.filter fun r => !r.isSwitch).foldl (after policy) l = rs.foldl (after policy) l := by
  induction rs generalizing l with
  | nil => rfl
  | cons r rs ih =>
    cases hr : r.isSwitch with
    | true =>
      have hstay : l.after policy r = l := after_of_isSwitch hr
      simp only [List.filter_cons, hr, List.foldl_cons, hstay]
      exact ih l
    | false =>
      simp only [List.filter_cons, hr, Bool.not_false, if_true, List.foldl_cons]
      exact ih (l.after policy r)

end Lifecycle

namespace Engine

variable {e : Engine} {r : Request} {x : Rejection}

/-! ### Refusals can be told from the lifecycle -/

theorem Sound.update_error_iff_lifecycle (h : e.Sound) {ev : Event}
    (hs : ev.reason ≠ .osAccountChanged) :
    (e.update ev).2 = .error x ↔ e.lifecycle.refuses? (.event ev) = some x := by
  rw [h.update_error_iff]
  unfold Lifecycle.refuses?
  rcases ev.reason.structural_cases with hr | hr | hr | hr | hr
  · rw [refuses_change_iff (.inl hr), ← lifecycle_refusal?]
    cases hre : ev.reason <;> simp_all [Reason.structural]
  · simp [hr, not_refuses_create hr]
  · rw [refuses_change_iff (.inr hr), ← lifecycle_refusal?]
    simp only [hr]
  · rw [refuses_terminate_iff hr, ← lifecycle_tracks_iff]
    simp only [hr]
    cases e.lifecycle.tracks ev.targetUid ev.pid <;> simp [eq_comm]
  · exact absurd hr hs

theorem expireBoost_error_iff_lifecycle {pid : Int} {token : Nat} :
    (e.expireBoost pid token).2 = .error x ↔
      e.lifecycle.refuses? (.expireBoost pid token) = some x := by
  simp only [Lifecycle.refuses?, lifecycle_expired?]
  unfold expireBoost
  cases e.processes.get? pid with
  | none => simp
  | some p =>
    cases hundo : p.boost.filter (fun b => b.token == token) |>.bind fun b => b.reason.undo? with
    | none =>
      simp only [Option.bind_some, hundo]
      simp
    | some reason =>
      simp only [Option.bind_some, hundo]
      simp [conclude]

theorem Sound.step_error_iff_lifecycle (h : e.Sound) (hr : r.isSwitch = false) :
    (e.step r).2 = .error x ↔ e.lifecycle.refuses? r = some x := by
  cases r with
  | event ev => exact h.update_error_iff_lifecycle (by simpa [Request.isSwitch] using hr)
  | switchTo account => cases hr
  | expireBoost pid token => exact expireBoost_error_iff_lifecycle
  | noteKilled uid => exact iff_of_false (fun hx => nomatch hx) (fun hx => nomatch hx)
  | retain live => exact iff_of_false (fun hx => nomatch hx) (fun hx => nomatch hx)

theorem noteKilled_snd_lifecycle (e : Engine) (uid : Int) :
    (e.noteKilled uid).2 = (e.lifecycle.bundles.get? uid).isSome := by
  unfold noteKilled
  rw [lifecycle_bundle?]
  cases e.bundles.get? uid <;> rfl

/-! ### Two runs -/

theorem run_lifecycle (settings : Settings) (requests : List Request) :
    (run settings requests).lifecycle =
      requests.foldl (Lifecycle.after settings.policy) {} := by
  have key : ∀ (rs : List Request) (e : Engine), e.Sound → e.settings = settings →
      (rs.foldl after e).lifecycle = rs.foldl (Lifecycle.after settings.policy) e.lifecycle := by
    intro rs
    induction rs with
    | nil => exact fun _ _ _ => rfl
    | cons r rs ih =>
      intro e hsound hset
      have hnext := hsound.lifecycle_after r
      rw [hset] at hnext
      rw [List.foldl_cons, List.foldl_cons, ← hnext]
      exact ih (e.after r) (hsound.after r) ((after_settings e r).trans hset)
  exact key requests (new settings) (sound_new settings) rfl

/-- Below the priorities `e` and `f` have the same state, and they give the same answer to
everything but a switch. -/
structure Indistinct (e f : Engine) : Prop where
  lifecycle : e.lifecycle = f.lifecycle
  verdict : ∀ r : Request, r.isSwitch = false → ∀ x,
    (e.step r).2 = .error x ↔ (f.step r).2 = .error x
  marked : ∀ uid, (e.noteKilled uid).2 = (f.noteKilled uid).2

theorem Sound.indistinct {f : Engine} (he : e.Sound) (hf : f.Sound)
    (h : e.lifecycle = f.lifecycle) : e.Indistinct f := by
  refine ⟨h, ?_, ?_⟩
  · intro r hr x
    rw [he.step_error_iff_lifecycle hr, hf.step_error_iff_lifecycle hr, h]
  · intro uid
    rw [noteKilled_snd_lifecycle, noteKilled_snd_lifecycle, h]

/-- The shift, the clamp and the switches of two runs may differ as they like.  As the lists may end
anywhere, this is about every pair of corresponding states on the way. -/
theorem run_indistinct {s t : Settings} (hpinned : ∀ name, name ∈ s.pinned ↔ name ∈ t.pinned)
    (hperiod : s.gracePeriod = t.gracePeriod) {rs ss : List Request}
    (hshared : (rs.filter fun r => !r.isSwitch) = ss.filter fun r => !r.isSwitch) :
    (run s rs).Indistinct (run t ss) := by
  have hpolicy : s.policy = t.policy := by
    have hcontains : s.pinned.contains = t.pinned.contains := by
      funext name
      rw [Bool.eq_iff_iff, List.contains_iff_mem, List.contains_iff_mem]
      exact hpinned name
    unfold Settings.policy
    rw [hcontains, hperiod]
  refine (run_sound s rs).indistinct (run_sound t ss) ?_
  rw [run_lifecycle, run_lifecycle, ← Lifecycle.foldl_after_filter, hshared,
    Lifecycle.foldl_after_filter, hpolicy]

/-- An extension is bound by a bundle of the foreground account and the boost taken back; one of the
engines has other settings and three switches more. -/
theorem indistinct_past_binding :
    ∃ (s t : Settings) (rs ss : List Request), s.shift ≠ t.shift ∧ s.clamp ≠ t.clamp ∧
      (∀ name, name ∈ s.pinned ↔ name ∈ t.pinned) ∧ s.gracePeriod = t.gracePeriod ∧
      (rs.filter fun r => !r.isSwitch) = (ss.filter fun r => !r.isSwitch) ∧
      rs.length + 3 = ss.length ∧ (run s rs).Indistinct (run t ss) ∧
      (run s rs).lifecycle ≠ {} ∧ (run s rs).snapshot ≠ (run t ss).snapshot := by
  let s : Settings := { pinned := ["shell"], shift := 50 }
  let t : Settings := { pinned := ["shell", "shell"], shift := 7, clamp := true }
  let mail : Request := .sent .createProcess 1 20000001 none
  let shop : Request := .sent .createProcess 2 20000002 none
  let leave : Request := .sent .background 1 20000001 none
  let bind : Request := .sent .bindExtension 1 20000001 (some 20000002)
  let rs := [mail, shop, leave, bind, .expireBoost 1 1]
  let ss := [mail, .switchTo 100, shop, leave, .switchTo 101, bind, .switchTo 100, .expireBoost 1 1]
  have hpinned : ∀ name, name ∈ s.pinned ↔ name ∈ t.pinned := by
    intro name
    simp [s, t]
  have hshared : (rs.filter fun r => !r.isSwitch) = ss.filter fun r => !r.isSwitch := by decide
  exact ⟨s, t, rs, ss, by decide, by decide, hpinned, rfl, hshared, rfl,
    run_indistinct hpinned rfl hshared, by decide, by decide⟩

end Engine

end MemoryArbiter
