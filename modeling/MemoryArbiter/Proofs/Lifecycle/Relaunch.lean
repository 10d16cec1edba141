import MemoryArbiter.Proofs.Lifecycle.Spent
import Mathlib.Data.List.Induction

/-! # Marks and relaunches

A bundle that is marked as killed is marked until a new process joins it, and nothing else touches
its state.  So the state of a bundle can be read off the requests that have led to it.
-/

namespace MemoryArbiter

namespace Engine

/-! ### The last mark -/

/-- A mark of `uid` among `requests` has found a bundle, and no request after it renews the bundle
in the sense of `renews`. -/
def MarkedSince (renews : Engine → Request → Prop) (settings : Settings) (requests : List Request)
    (uid : Int) : Prop :=
  ∃ before after, requests = before ++ .noteKilled uid :: after ∧
    ((run settings before).noteKilled uid).2 = true ∧
    ∀ mid r rest, after = mid ++ r :: rest →
      ¬ renews (run settings (before ++ .noteKilled uid :: mid)) r

variable {renews : Engine → Request → Prop} {settings : Settings} {requests : List Request}
  {uid : Int} {b : Bundle}

theorem markedSince_concat (r : Request) : MarkedSince renews settings (requests ++ [r]) uid ↔
    (r = .noteKilled uid ∧ ((run settings requests).noteKilled uid).2 = true) ∨
      (MarkedSince renews settings requests uid ∧ ¬ renews (run settings requests) r) := by
  constructor
  · rintro ⟨before, after, heq, hfound, hno⟩
    rcases List.eq_nil_or_concat after with rfl | ⟨after, last, rfl⟩
    · obtain ⟨rfl, hlast⟩ := List.append_inj' heq rfl
      exact .inl ⟨List.singleton_inj.mp hlast, hfound⟩
    · have heq' : requests ++ [r] = (before ++ .noteKilled uid :: after) ++ [last] := by
        simpa using heq
      obtain ⟨rfl, hlast⟩ := List.append_inj' heq' rfl
      obtain rfl := List.singleton_inj.mp hlast
      refine .inr ⟨⟨before, after, rfl, hfound, fun mid s rest hafter => ?_⟩, ?_⟩
      · exact hno mid s (rest ++ [r]) (by simp [hafter])
      · exact hno after r [] (by simp)
  · rintro (⟨rfl, hfound⟩ | ⟨⟨before, after, rfl, hfound, hno⟩, hlast⟩)
    · exact ⟨requests, [], rfl, hfound, fun mid s rest hnil => by simp at hnil⟩
    · refine ⟨before, after ++ [r], by simp, hfound, fun mid s rest heq => ?_⟩
      rcases List.eq_nil_or_concat rest with rfl | ⟨rest, last, rfl⟩
      · obtain ⟨rfl, hr⟩ := List.append_inj' heq rfl
        obtain rfl := List.singleton_inj.mp hr
        exact hlast
      · have heq' : after ++ [r] = (mid ++ s :: rest) ++ [last] := by simpa using heq
        obtain ⟨hafter, -⟩ := List.append_inj' heq' rfl
        exact hno mid s rest hafter

theorem run_waiting_iff (hb : (run settings requests).bundles.get? uid = some b) :
    b.state = .waitingForKill ↔
      MarkedSince (fun e r => e.Adds r uid) settings requests uid := by
  induction requests using List.reverseRecOn generalizing b with
  | nil => cases hb
  | append_singleton requests r ih =>
    have h := run_sound settings requests
    rw [markedSince_concat]
    rw [run_concat] at hb
    by_cases hmark : r = .noteKilled uid
    · subst hmark
      obtain ⟨hwaiting, c, hc⟩ := bundle?_noteKilled_self hb
      refine iff_of_true hwaiting (.inl ⟨rfl, ?_⟩)
      rw [noteKilled_snd, hc]
      rfl
    · by_cases hadds : (run settings requests).Adds r uid
      · rw [hadds.state h hb]
        refine iff_of_false (by simp) ?_
        rintro (⟨hr, -⟩ | ⟨-, hno⟩)
        · exact hmark hr
        · exact hno hadds
      · obtain ⟨c, hc, hstate⟩ := h.state_kept hb hadds hmark
        rw [hstate, ih hc]
        simp [hmark, hadds]

/-- How the states of bundles follow the marks and the new processes. -/
structure FollowsMarks (settings : Settings) : Prop where
  waiting_iff : ∀ requests uid b, (run settings requests).bundles.get? uid = some b →
    (b.state = .waitingForKill ↔ MarkedSince (fun e r => e.Adds r uid) settings requests uid)
  joined : ∀ requests ev, ev.reason = .createProcess →
    ¬ (run settings requests).Tracks ev.targetUid ev.pid →
    (run settings requests).Adds (.event ev) ev.targetUid ∧
      ∃ b, ((run settings requests).after (.event ev)).bundles.get? ev.targetUid = some b ∧
        b.state = .normal
  /-- A creation that is told again does nothing, to a mark neither. -/
  repeated : ∀ requests ev, ev.reason = .createProcess →
    (run settings requests).Tracks ev.targetUid ev.pid →
    (run settings requests).after (.event ev) = run settings requests
  kept : ∀ requests r uid b c, (run settings requests).bundles.get? uid = some b →
    ((run settings requests).after r).bundles.get? uid = some c → r ≠ .noteKilled uid →
    ¬ (run settings requests).Adds r uid → c.state = b.state

theorem run_followsMarks (settings : Settings) : FollowsMarks settings where
  waiting_iff _ _ _ hb := run_waiting_iff hb
  joined requests ev hr hnew := by
    have h := run_sound settings requests
    obtain ⟨b, hb, hstate, -⟩ := h.joined hr hnew
    exact ⟨h.adds_create hr hnew, b, hb, hstate⟩
  repeated requests ev hr htracks := by
    have hafter : (run settings requests).after (.event ev) =
        ((run settings requests).update ev).1 := rfl
    rw [hafter, update_of_create hr, track_of_tracks htracks]
  kept requests r uid b c hb hc hmark hadds := by
    obtain ⟨d, hd, hstate⟩ := (run_sound settings requests).state_kept hc hadds hmark
    rw [hstate, Option.some.inj (hb.symm.trans hd)]

def relaunched : List Request :=
  [.sent .createProcess 1 20000001 none, .noteKilled 20000001, .sent .createProcess 1 20000001 none]

/-- The bundle of a process whose end was missed still waits after it has been created again. -/
theorem waiting_after_relaunch :
    ¬ ∀ (settings : Settings) (requests : List Request) (uid : Int) (b : Bundle),
      (run settings requests).bundles.get? uid = some b →
      (b.state = .waitingForKill ↔ MarkedSince (fun e r => e.Accepts r ∧
        ∃ ev, r = .event ev ∧ ev.reason = .createProcess ∧ ev.targetUid = uid)
        settings requests uid) := by
  intro h
  have hstate : ((run {} relaunched).bundles.get? 20000001).map Bundle.state =
      some .waitingForKill := by decide
  obtain ⟨b, hb, hwaiting⟩ := Option.map_eq_some_iff.mp hstate
  have hmarked := (h {} relaunched 20000001 b hb).mp hwaiting
  have hsplit : relaunched = relaunched.take 2 ++ [.sent .createProcess 1 20000001 none] := rfl
  rw [hsplit, markedSince_concat] at hmarked
  rcases hmarked with ⟨hno, -⟩ | ⟨-, hno⟩
  · cases hno
  · exact hno ⟨accepts_create rfl, _, rfl, rfl, rfl⟩

end Engine

end MemoryArbiter
