import MemoryArbiter.Proofs.Engine.Foreground
import MemoryArbiter.Proofs.Engine.Placement
import MemoryArbiter.Proofs.Engine.Removal
import MemoryArbiter.Proofs.Engine.Run

/-! # Every run is sound

A new engine is sound, and each request, accepted or not, leaves a sound engine behind.
-/

namespace MemoryArbiter

/-! ### The rules leave pid and uid alone -/

namespace TrackedProcess

theorem liftTo_ids (p : TrackedProcess) (floor : Int) :
    (p.liftTo floor).pid = p.pid ∧ (p.liftTo floor).uid = p.uid := by
  unfold liftTo
  split <;> exact ⟨rfl, rfl⟩

theorem letGo_ids (p : TrackedProcess) (floor : Int) :
    (p.letGo floor).pid = p.pid ∧ (p.letGo floor).uid = p.uid := by
  unfold letGo
  split <;> exact ⟨rfl, rfl⟩

theorem holdAt_ids (p : TrackedProcess) (asserted : Bool) (floor : Int) :
    (p.holdAt asserted floor).pid = p.pid ∧ (p.holdAt asserted floor).uid = p.uid := by
  unfold holdAt
  split
  · exact p.liftTo_ids floor
  · exact ⟨rfl, rfl⟩

theorem holdBinding_ids (p : TrackedProcess) :
    p.holdBinding.pid = p.pid ∧ p.holdBinding.uid = p.uid := by
  unfold holdBinding
  split
  · exact p.liftTo_ids _
  · exact ⟨rfl, rfl⟩

theorem holdAll_ids (p : TrackedProcess) : p.holdAll.pid = p.pid ∧ p.holdAll.uid = p.uid := by
  unfold holdAll
  simp only [holdBinding_ids, holdAt_ids]
  split
  · exact p.liftTo_ids _
  · exact p.letGo_ids _

theorem react_ids (p : TrackedProcess) (reason : Reason) (binding : Option Binding) :
    (p.react reason binding).pid = p.pid ∧ (p.react reason binding).uid = p.uid := by
  cases reason with
  | unbindExtension =>
    cases hb : p.signals.binding with
    | none => simp only [react, hb, and_self]
    | some old =>
      simp only [react, hb]
      exact letGo_ids _ _
  | unfreeze | suspendDelayEnd | unVisible | distDeviceDisconnected => exact letGo_ids _ _
  | _ => exact ⟨rfl, rfl⟩

theorem respond_ids (p : TrackedProcess) (reason : Reason) (binding : Option Binding) :
    (p.respond reason binding).pid = p.pid ∧ (p.respond reason binding).uid = p.uid := by
  unfold respond
  rw [(holdAll_ids _).1, (holdAll_ids _).2]
  exact p.react_ids reason binding

end TrackedProcess

namespace Engine

variable {e : Engine}

/-! ### One step -/

theorem Sound.track (h : e.Sound) (ev : Event) : (e.track ev).1.Sound := by
  unfold Engine.track
  simp only [takeIn_eq]
  cases hp : e.processes.get? ev.pid with
  | none => exact h.addProcess hp {}
  | some p =>
    by_cases hu : p.uid = ev.targetUid
    · simp only [if_pos hu]
      exact h
    · simp only [if_neg hu]
      exact (h.dropProcess ev.pid {}).addProcess (h.dropProcess_get?_self ev.pid {})
        (e.dropProcess ev.pid {}).2

theorem Sound.untrack (h : e.Sound) (ev : Event) : (e.untrack ev).1.Sound := by
  unfold Engine.untrack
  split
  · exact h.dropProcess ev.pid {}
  · exact h

theorem Sound.withToken (h : e.Sound) (token : Nat) : { e with lastToken := token }.Sound := by
  have hagree : ∀ u, e.AgreeAt { e with lastToken := token } u := fun _ =>
    ⟨fun _ _ _ => Iff.rfl, rfl, rfl⟩
  exact ⟨⟨fun u => (h.housed u).frame (hagree u),
    h.enrolled.frame ⟨rfl, rfl, rfl⟩ rfl fun _ => rfl, h.coherent, h.apart⟩,
    fun u => (h.priced u).frame (hagree u) rfl rfl⟩

theorem Sound.changeProcess (h : e.Sound) (ev : Event) : (e.changeProcess ev).1.Sound := by
  unfold Engine.changeProcess
  cases hr : e.refusal? ev.targetUid ev.pid with
  | some r => exact h
  | none =>
    cases hp : e.processes.get? ev.pid with
    | none => exact h.withToken _
    | some p =>
      obtain ⟨hpid, huid⟩ := p.respond_ids ev.reason (e.bindingFor ev)
      exact (h.withToken _).putProcess hp hpid huid

theorem Sound.noteReady (h : e.Sound) (ev : Event) : (e.noteReady ev).1.Sound := by
  unfold Engine.noteReady
  split <;> exact h

theorem Sound.update (h : e.Sound) (ev : Event) : (e.update ev).1.Sound := by
  unfold Engine.update
  split
  · exact h.track ev
  · exact h.untrack ev
  · exact h.switchTo _
  · exact h.noteReady ev
  · exact h.changeProcess ev

theorem Sound.expireBoost (h : e.Sound) (pid : Int) (token : Nat) :
    (e.expireBoost pid token).1.Sound := by
  unfold Engine.expireBoost
  cases hp : e.processes.get? pid with
  | none => exact h
  | some p =>
    simp only
    split
    · exact h
    · obtain ⟨hpid, huid⟩ := { p with boost := none }.respond_ids _ none
      exact h.putProcess hp hpid huid

theorem Sound.noteKilled (h : e.Sound) (uid : Int) : (e.noteKilled uid).1.Sound := by
  unfold Engine.noteKilled
  cases hb : e.bundles.get? uid with
  | none => exact h
  | some b =>
    obtain ⟨hbu, hacc, hne, hpids⟩ := (h.housed uid).bundle b hb
    have hpr := h.priced uid
    have hget : (e.bundles.insert uid { b with state := .waitingForKill }).get? uid =
        some { b with state := .waitingForKill } := Table.get?_insert_self _ _ _
    refine h.of_agree uid ⟨rfl, rfl, rfl⟩ (fun u hu => ⟨fun _ _ _ => Iff.rfl, ?_, rfl⟩)
      ⟨fun pid p hp hu => ⟨((h.housed uid).process pid p hp hu).1, _, hget⟩, ?_⟩
      ⟨?_, ?_, ?_⟩
      (h.enrolled.frame ⟨rfl, rfl, rfl⟩ rfl ?_) h.coherent
    · exact (Table.get?_insert _ _ _ _).trans (if_neg (Ne.symm hu))
    · intro c hc
      rw [← Option.some.inj (hget.symm.trans hc)]
      exact ⟨hbu, hacc, hne, hpids⟩
    · intro pid p c hp hu hc
      rw [← Option.some.inj (hget.symm.trans hc)]
      exact hpr.process pid p b hp hu hb
    · intro c hc
      rw [← Option.some.inj (hget.symm.trans hc)]
      exact ⟨(hpr.bundle b hb).attained, (hpr.bundle b hb).le⟩
    · exact (hpr.rank.trans (congrArg _ hb)).trans (congrArg (Option.map Bundle.priority) hget).symm
    · intro u
      show ((e.bundles.insert uid _).get? u).isSome = _
      rw [Table.get?_insert]
      by_cases hu : uid = u
      · subst hu
        simp [hb]
      · rw [if_neg hu]

theorem Sound.retain (h : e.Sound) (live : List Int) : (e.retain live).1.Sound :=
  Sound.foldl_dropProcess _ (s := (e, {})) h

theorem Sound.after (h : e.Sound) (r : Request) : (e.after r).Sound := by
  cases r with
  | event ev => exact h.update ev
  | switchTo account => exact h.switchTo account
  | expireBoost pid token => exact h.expireBoost pid token
  | noteKilled uid => exact h.noteKilled uid
  | retain live => exact h.retain live

/-! ### The settings stay as they are -/

theorem track_terms (e : Engine) (ev : Event) : e.SameTerms (e.track ev).1 := by
  unfold Engine.track
  simp only [takeIn_eq]
  cases hp : e.processes.get? ev.pid with
  | none => exact addProcess_terms e ev {}
  | some p =>
    by_cases hu : p.uid = ev.targetUid
    · simp only [if_pos hu]
      exact SameTerms.refl e
    · simp only [if_neg hu]
      have hdrop := dropProcess_terms e ev.pid {}
      exact hdrop.trans (addProcess_terms _ ev (e.dropProcess ev.pid {}).2)

theorem untrack_terms (e : Engine) (ev : Event) : e.SameTerms (e.untrack ev).1 := by
  unfold Engine.untrack
  split
  · exact dropProcess_terms e ev.pid {}
  · exact SameTerms.refl e

theorem changeProcess_terms (e : Engine) (ev : Event) : e.SameTerms (e.changeProcess ev).1 := by
  unfold Engine.changeProcess
  split
  · exact SameTerms.refl e
  · simp only
    split
    · exact ⟨rfl, rfl, rfl⟩
    · have hput := @putProcess_terms
      exact ⟨(hput _).settings, (hput _).current, (hput _).previous⟩

theorem noteReady_terms (e : Engine) (ev : Event) : e.SameTerms (e.noteReady ev).1 := by
  unfold Engine.noteReady
  split <;> exact SameTerms.refl e

theorem expireBoost_terms (e : Engine) (pid : Int) (token : Nat) :
    e.SameTerms (e.expireBoost pid token).1 := by
  unfold Engine.expireBoost
  split
  · exact SameTerms.refl e
  · split
    · exact SameTerms.refl e
    · exact putProcess_terms _

theorem noteKilled_terms (e : Engine) (uid : Int) : e.SameTerms (e.noteKilled uid).1 := by
  unfold Engine.noteKilled
  split
  · exact ⟨rfl, rfl, rfl⟩
  · exact SameTerms.refl e

theorem update_terms {ev : Event} (hstays : ev.reason ≠ .osAccountChanged) :
    e.SameTerms (e.update ev).1 := by
  unfold update
  split
  · exact track_terms e ev
  · exact untrack_terms e ev
  · next hr => exact absurd hr hstays
  · exact noteReady_terms e ev
  · exact changeProcess_terms e ev

theorem update_settings (e : Engine) (ev : Event) : (e.update ev).1.settings = e.settings := by
  unfold Engine.update
  split
  · exact (track_terms e ev).settings
  · exact (untrack_terms e ev).settings
  · exact switchTo_settings e _
  · exact (noteReady_terms e ev).settings
  · exact (changeProcess_terms e ev).settings

theorem after_settings (e : Engine) (r : Request) : (e.after r).settings = e.settings := by
  cases r with
  | event ev => exact update_settings e ev
  | switchTo account => exact switchTo_settings e account
  | expireBoost pid token => exact (expireBoost_terms e pid token).settings
  | noteKilled uid => exact (noteKilled_terms e uid).settings
  | retain live => exact (foldl_dropProcess_terms _ (e, {})).settings

/-! ### Every run -/

theorem run_sound (settings : Settings) (requests : List Request) : (run settings requests).Sound :=
  run_induction (sound_new settings) (fun _ r h => h.after r) requests

theorem run_sound_induction {settings : Settings} {P : Engine → Prop} (start : P (new settings))
    (step : ∀ e r, e.Sound → P e → P (e.after r)) (requests : List Request) :
    P (run settings requests) :=
  (run_induction (P := fun e => e.Sound ∧ P e) ⟨sound_new settings, start⟩
    (fun e r h => ⟨h.1.after r, step e r h.1 h.2⟩) requests).2

theorem run_settings (settings : Settings) (requests : List Request) :
    (run settings requests).settings = settings :=
  run_induction (P := fun e => e.settings = settings) rfl
    (fun e r h => (after_settings e r).trans h) requests

end Engine

end MemoryArbiter
