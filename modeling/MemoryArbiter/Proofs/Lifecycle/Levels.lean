import MemoryArbiter.Proofs.Lifecycle.Floors
import MemoryArbiter.Proofs.Lifecycle.Origins
import MemoryArbiter.Proofs.Lifecycle.Projection

/-! # Levels over a run

In a run the processes of bundles that are not pinned stay settled as long as no binding is
replaced by a looser one.  Where that happens, the level of the former binding is left over.
-/

namespace MemoryArbiter

namespace Engine

variable {e : Engine} {r : Request} {uid pid : Int} {p q : TrackedProcess} {b : Bundle}

/-- Every process that can change has a plain level or that of a signal asserted for it. -/
def Grounded (e : Engine) : Prop :=
  ∀ pid p b, e.processes.get? pid = some p → e.bundles.get? p.uid = some b → b.pinned = false →
    p.Grounded

def Settled (e : Engine) : Prop :=
  ∀ pid p b, e.processes.get? pid = some p → e.bundles.get? p.uid = some b → b.pinned = false →
    p.Settled

theorem Settled.grounded (h : e.Settled) : e.Grounded :=
  fun pid p b hp hb hpin => (h pid p b hp hb hpin).grounded

/-- The request is a bind that is accepted and replaces a binding by a looser one. -/
def Loosening (e : Engine) : Request → Prop
  | .event ev => ev.reason = .bindExtension ∧ e.refusal? ev.targetUid ev.pid = none ∧
    ∃ p ∈ e.processes.get? ev.pid, p.Loosens (bindingFloor (ev.callerUid.bind e.levelOf))
  | _ => False

instance (e : Engine) (r : Request) : Decidable (e.Loosening r) :=
  match r with
  | .event _ => inferInstanceAs (Decidable (_ ∧ _ ∧ _))
  | .switchTo _ | .expireBoost _ _ | .noteKilled _ | .retain _ => inferInstanceAs (Decidable False)

/-- No request of the list, made one after the other, is loosening. -/
def Firm (e : Engine) : List Request → Prop
  | [] => True
  | r :: rs => ¬ e.Loosening r ∧ (e.after r).Firm rs

instance decidableFirm : (rs : List Request) → (e : Engine) → Decidable (e.Firm rs)
  | [], _ => .isTrue trivial
  | r :: rs, e =>
    have := decidableFirm rs (e.after r)
    inferInstanceAs (Decidable (_ ∧ _))

/-! ### One request -/

theorem settled_start {ev : Event} (hb : (e.lifecycle.after e.settings.policy
      (.event ev)).bundles.get? ev.targetUid = some b) (hpin : b.pinned = false) (pid : Int) :
    (TrackedProcess.start pid ev.targetUid
      (if (e.lifecycle.bundleFor e.settings.policy ev).pinned then Level.system
        else Level.foreground)).unpriced.Settled := by
  have hlevel : Level.foreground ∈ Level.plain := by decide
  rw [← Lifecycle.pinned_after_event hb, hpin]
  exact ⟨.inl hlevel, fun f hf => nomatch hf⟩

theorem undo?_ne_bindExtension {boost reason : Reason} (h : boost.undo? = some reason) :
    reason ≠ .bindExtension := by
  cases boost <;> simp [Reason.undo?] at h <;> simp [← h]

/-- A process that was there before was in a bundle that was pinned if it is so now. -/
theorem Sound.process_before (h : e.Sound) (hq : e.lifecycle.processes.get? pid = some q)
    (hb : (e.lifecycle.after e.settings.policy r).bundles.get? q.uid = some b) :
    ∃ q₀ c, e.processes.get? pid = some q₀ ∧ q₀.unpriced = q ∧ e.bundles.get? q₀.uid = some c ∧
      c.pinned = b.pinned := by
  rw [lifecycle_process?] at hq
  obtain ⟨q₀, hq₀, rfl⟩ := Option.map_eq_some_iff.mp hq
  obtain ⟨-, c, hc⟩ := (h.housed q₀.uid).process pid q₀ hq₀ rfl
  have hcl : e.lifecycle.bundles.get? q₀.unpriced.uid = some c.unpriced := by
    rw [lifecycle_bundle?]
    exact congrArg (Option.map Bundle.unpriced) hc
  exact ⟨q₀, c, hq₀, rfl, hc, (Lifecycle.pinned_after hcl hb).symm⟩

/-- A process is settled after a request that is not loosening, if all were before it. -/
theorem Settled.of_origin (h : e.Sound) (hs : e.Settled) (hno : ¬ e.Loosening r)
    (hp : Lifecycle.ProcessOrigin e.settings.policy e.lifecycle r pid p)
    (hb : (e.lifecycle.after e.settings.policy r).bundles.get? p.uid = some b)
    (hpin : b.pinned = false) : p.Settled := by
  have hbefore : ∀ q, e.lifecycle.processes.get? pid = some q → q.uid = p.uid → q.Settled := by
    intro q hq hu
    rw [← hu] at hb
    obtain ⟨q₀, c, hq₀, rfl, hc, hcpin⟩ := h.process_before hq hb
    exact (hs pid q₀ c hq₀ hc (hcpin.trans hpin)).of_eq rfl rfl
  cases hp with
  | kept _ hq => exact hbefore p hq rfl
  | started ev hr hreason hpid hnew =>
    subst hr
    exact settled_start hb hpin pid
  | changed ev hr hreason hpid hallowed q hq boost =>
    subst hr hpid
    have hq' := hbefore q hq (q.respond_ids _ _).2.symm
    refine TrackedProcess.Settled.of_eq (p := q.respond ev.reason (e.lifecycle.bindingFor ev))
      ?_ rfl rfl
    by_cases hbind : ev.reason = .bindExtension
    · rw [lifecycle_bindingFor]
      unfold bindingFor
      rw [if_pos hbind, hbind]
      refine ⟨(hq'.respond_binding_iff _).mpr fun hloose => hno ?_, q.respond_held _ _⟩
      rw [lifecycle_process?] at hq
      obtain ⟨q₀, hq₀, rfl⟩ := Option.map_eq_some_iff.mp hq
      rw [lifecycle_refusal?] at hallowed
      exact ⟨hbind, hallowed, q₀, hq₀, hloose.special, hloose.lasting, hloose.unheld, hloose.above⟩
    · exact hq'.grounded.settled_respond hbind
  | expired token hr q hq boost hwaiting reason hundo =>
    have hq' := hbefore q hq ({ q with boost := none }.respond_ids _ _).2.symm
    have hq'' : { q with boost := none }.Grounded := hq'.grounded
    exact hq''.settled_respond (undo?_ne_bindExtension hundo)

theorem Sound.settled_after (h : e.Sound) (hs : e.Settled) (hno : ¬ e.Loosening r) :
    (e.after r).Settled := by
  intro pid p b hp hb hpin
  have hpl := h.lifecycle_after_process? hp
  have hbl := h.lifecycle_after_bundle? hb
  have hsettled : p.unpriced.Settled :=
    hs.of_origin h hno (Lifecycle.process?_after hpl) hbl hpin
  exact hsettled.of_eq rfl rfl

/-- The record of a process that is changed, and its bundle, before and after. -/
theorem Sound.after_change (h : e.Sound) {ev : Event} (hr : ev.reason.structural = false)
    (hallowed : e.refusal? ev.targetUid ev.pid = none) :
    ∃ q b p c, e.processes.get? ev.pid = some q ∧ e.bundles.get? q.uid = some b ∧
      b.pinned = false ∧ (e.after (.event ev)).processes.get? ev.pid = some p ∧
      p.level = (q.respond ev.reason (e.bindingFor ev)).level ∧
      p.signals = (q.respond ev.reason (e.bindingFor ev)).signals ∧
      (e.after (.event ev)).bundles.get? p.uid = some c ∧ c.pinned = false := by
  obtain ⟨b, hb, -, hpin⟩ := refusal?_eq_none hallowed
  obtain ⟨q, hq, hu⟩ := h.tracks_of_refusal? hallowed
  have hchange : (e.after (.event ev)).lifecycle = e.lifecycle.change e.settings.policy ev := by
    rw [← lifecycle_refusal?] at hallowed
    rw [h.lifecycle_after]
    exact (Lifecycle.update_of_change hr).trans (by simp [hallowed])
  have hprocess : ∃ boost, (e.after (.event ev)).lifecycle.processes.get? ev.pid =
      some { (q.respond ev.reason (e.bindingFor ev)).unpriced with boost := boost } := by
    rw [hchange, q.unpriced_respond]
    unfold Lifecycle.change
    rw [lifecycle_process?, hq, ← lifecycle_bindingFor]
    exact ⟨_, Table.get?_insert_self _ _ _⟩
  obtain ⟨boost, hprocess⟩ := hprocess
  rw [lifecycle_process?] at hprocess
  obtain ⟨p, hp, hpq⟩ := Option.map_eq_some_iff.mp hprocess
  have hpu : p.uid = ev.targetUid :=
    (congrArg TrackedProcess.uid hpq).trans ((q.respond_ids _ _).2.trans hu)
  have hbundle : (e.after (.event ev)).lifecycle.bundles.get? p.uid = some b.unpriced := by
    rw [hchange, Lifecycle.bundles_change, lifecycle_bundle?, hpu, hb]
    rfl
  rw [lifecycle_bundle?] at hbundle
  obtain ⟨c, hc, hcb⟩ := Option.map_eq_some_iff.mp hbundle
  have hlevel := congrArg TrackedProcess.level hpq
  have hsignals := congrArg TrackedProcess.signals hpq
  exact ⟨q, b, p, c, hq, by rw [hu]; exact hb, hpin, hp, hlevel, hsignals, hc,
    (congrArg Bundle.pinned hcb).trans hpin⟩

theorem Sound.not_grounded_after (h : e.Sound) (hs : e.Settled) (hloose : e.Loosening r) :
    ¬ (e.after r).Grounded := by
  cases r with
  | event ev =>
    obtain ⟨hbind, hallowed, q, hq, hloose⟩ := hloose
    have hr : ev.reason.structural = false := by simp [hbind, Reason.structural]
    obtain ⟨q', b, p, c, hq', hb, hbpin, hp, hlevel, hsignals, hc, hcpin⟩ :=
      h.after_change hr hallowed
    obtain rfl := Option.some.inj (hq'.symm.trans hq)
    have hsettled : q'.Settled := hs ev.pid q' b hq' hb hbpin
    intro hgrounded
    have hlow : p.Grounded := hgrounded ev.pid p c hp hc hcpin
    have hrespond : (q'.respond ev.reason (e.bindingFor ev)).Grounded := by
      unfold TrackedProcess.Grounded at hlow ⊢
      rwa [hlevel, hsignals] at hlow
    unfold bindingFor at hrespond
    rw [if_pos hbind, hbind, hsettled.respond_binding_iff] at hrespond
    exact hrespond hloose
  | _ => cases hloose

/-- From settled processes, exactly the loosening requests leak. -/
theorem Sound.grounded_after_iff (h : e.Sound) (hs : e.Settled) :
    (e.after r).Grounded ↔ ¬ e.Loosening r :=
  ⟨fun hg hloose => h.not_grounded_after hs hloose hg, fun hno => (h.settled_after hs hno).grounded⟩

/-! ### Runs -/

theorem Sound.settled_foldl_after (requests : List Request) (h : e.Sound) (hs : e.Settled)
    (hfirm : e.Firm requests) : (requests.foldl Engine.after e).Settled := by
  induction requests generalizing e with
  | nil => exact hs
  | cons r rs ih => exact ih (h.after r) (h.settled_after hs hfirm.1) hfirm.2

theorem settled_new (settings : Settings) : (new settings).Settled :=
  fun _ _ _ hp => nomatch hp

/-- In a run without loosening requests every level rests on something. -/
theorem run_grounded (settings : Settings) (requests : List Request)
    (hfirm : (new settings).Firm requests) : (run settings requests).Grounded :=
  ((sound_new settings).settled_foldl_after requests (settled_new settings) hfirm).grounded

/-- A process in the background that two others can bind, one of them in the foreground. -/
def twoCallers : List Request :=
  [.sent .createProcess 1 20000001 none, .sent .createProcess 2 20000002 none,
    .sent .createProcess 3 20000003 none, .sent .background 1 20000001 none,
    .sent .background 3 20000003 none]

/-- A binding may be replaced by a tighter one. -/
theorem grounded_past_tightening :
    ∃ (settings : Settings) (requests : List Request), (new settings).Firm requests ∧
      (run settings requests).Grounded ∧
      ((run settings requests).processes.get? 1).map TrackedProcess.level = some Level.visible := by
  let requests := twoCallers ++ [.sent .bindExtension 1 20000001 (some 20000003),
    .sent .bindExtension 1 20000001 (some 20000002)]
  have hfirm : (new {}).Firm requests := by decide
  exact ⟨{}, requests, hfirm, run_grounded {} requests hfirm, by decide⟩

/-- Bound by the caller in the foreground, then by the one in the background, then by none: the
process is left at the level of the first binding. -/
theorem leak_past_loosening :
    ¬ ∀ (settings : Settings) (requests : List Request), (run settings requests).Grounded := by
  let requests := twoCallers ++ [.sent .bindExtension 1 20000001 (some 20000002),
    .sent .bindExtension 1 20000001 (some 20000003), .sent .unbindExtension 1 20000001 none]
  let p : TrackedProcess := { pid := 1, uid := 20000001, level := 1, priority := 1 }
  let b : Bundle :=
    { uid := 20000001
      name := ""
      account := 100
      priority := 1
      pinned := false
      pids := IdSet.ofList [1] }
  intro h
  have hp : (run {} requests).processes.get? 1 = some p := by decide
  have hb : (run {} requests).bundles.get? p.uid = some b := by decide
  have hbad : p.Grounded := h {} requests 1 p b hp hb rfl
  exact absurd hbad (by decide)

end Engine

end MemoryArbiter
