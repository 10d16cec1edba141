import MemoryArbiter.Proofs.Engine.Determination
import MemoryArbiter.Proofs.Lifecycle.Origins
import Mathlib.Data.List.Basic

/-! # What an event touches and what it looks at

An event touches its uid and the uid that owns its process; a binding also looks at the bundle of its
caller.  Everything else stays as it is, and makes no difference to what becomes of these.
-/

namespace MemoryArbiter

namespace Lifecycle

variable {l l' : Lifecycle} {policy : Policy} {ev : Event} {uid pid : Int} {p q : TrackedProcess}

/-! ### The footprint -/

/-- The uid of `ev` and the owner of its process. -/
def Touches (l : Lifecycle) (ev : Event) (uid : Int) : Prop :=
  uid = ev.targetUid ∨ l.tracks uid ev.pid = true

/-- With these goes the caller of a binding. -/
def Consults (l : Lifecycle) (ev : Event) (uid : Int) : Prop :=
  l.Touches ev uid ∨ ev.reason = .bindExtension ∧ ev.callerUid = some uid

theorem tracks_eq_true_iff : l.tracks uid pid = true ↔
    ∃ p, l.processes.get? pid = some p ∧ p.uid = uid := by
  unfold tracks
  cases l.processes.get? pid <;> simp

theorem touches_of_some (hp : l.processes.get? ev.pid = some p) : l.Touches ev p.uid :=
  .inr (tracks_eq_true_iff.mpr ⟨p, hp, rfl⟩)

/-! ### What an event can do -/

/-- For `ev` there is no difference between `l` and `l'`, but for the token that it may take. -/
structure Alike (l l' : Lifecycle) (ev : Event) : Prop where
  process : l'.processes.get? ev.pid = l.processes.get? ev.pid
  bundle : ∀ uid, l.Touches ev uid → l'.bundles.get? uid = l.bundles.get? uid
  level : ev.reason = .bindExtension → ∀ caller, ev.callerUid = some caller →
    l'.levelOf caller = l.levelOf caller

theorem Alike.refl (l : Lifecycle) (ev : Event) : l.Alike l ev :=
  ⟨rfl, fun _ _ => rfl, fun _ _ _ => rfl⟩

theorem Alike.tracks_eq (h : l.Alike l' ev) (uid : Int) :
    l'.tracks uid ev.pid = l.tracks uid ev.pid := by
  unfold tracks
  rw [h.process]

theorem Alike.refusal?_eq (h : l.Alike l' ev) :
    l'.refusal? ev.targetUid ev.pid = l.refusal? ev.targetUid ev.pid := by
  unfold refusal?
  rw [h.bundle ev.targetUid (.inl rfl)]

theorem Alike.refuses?_eq (h : l.Alike l' ev) : l'.refuses? (.event ev) = l.refuses? (.event ev) := by
  simp only [refuses?, h.tracks_eq, h.refusal?_eq]

/-- What `ev` does to `l`, it does to `l'` as well. -/
inductive Parallel (policy : Policy) (l l' : Lifecycle) (ev : Event) : Prop
  | stay (left : l.update policy ev = l) (right : l'.update policy ev = l')
  | change (allowed : l.refusal? ev.targetUid ev.pid = none)
      (left : l.update policy ev = l.change policy ev)
      (right : l'.update policy ev = l'.change policy ev)
  | join (new : l.tracks ev.targetUid ev.pid = false)
      (left : l.update policy ev = (l.drop ev.pid).add policy ev)
      (right : l'.update policy ev = (l'.drop ev.pid).add policy ev)
  | drop (left : l.update policy ev = l.drop ev.pid) (right : l'.update policy ev = l'.drop ev.pid)

theorem Alike.parallel (h : l.Alike l' ev) (policy : Policy) : Parallel policy l l' ev := by
  rcases ev.reason.structural_cases with hr | hr | hr | hr | hr
  · have hl := @update_of_change l policy ev hr
    have hl' := @update_of_change l' policy ev hr
    rw [h.refusal?_eq] at hl'
    cases hno : l.refusal? ev.targetUid ev.pid with
    | some x =>
      rw [hno] at hl hl'
      exact .stay hl hl'
    | none =>
      rw [hno] at hl hl'
      exact .change hno hl hl'
  · have hl := @update_of_create l policy ev hr
    have hl' := @update_of_create l' policy ev hr
    rw [h.tracks_eq] at hl'
    cases htr : l.tracks ev.targetUid ev.pid with
    | true =>
      rw [htr] at hl hl'
      exact .stay hl hl'
    | false =>
      rw [htr] at hl hl'
      exact .join htr hl hl'
  · exact .stay (update_of_ready hr) (update_of_ready hr)
  · have hl := @update_of_terminate l policy ev hr
    have hl' := @update_of_terminate l' policy ev hr
    rw [h.tracks_eq] at hl'
    cases htr : l.tracks ev.targetUid ev.pid with
    | true =>
      rw [htr] at hl hl'
      exact .drop hl hl'
    | false =>
      rw [htr] at hl hl'
      exact .stay hl hl'
  · exact .stay (update_of_switch hr) (update_of_switch hr)

/-! ### What stays -/

theorem change_process?_of_ne (hpid : pid ≠ ev.pid) :
    (l.change policy ev).processes.get? pid = l.processes.get? pid := by
  unfold change
  split
  · rfl
  · exact (Table.get?_insert _ _ _ _).trans (if_neg (Ne.symm hpid))

theorem drop_process?_of_ne (hpid : pid ≠ ev.pid) :
    (l.drop ev.pid).processes.get? pid = l.processes.get? pid := by
  unfold drop
  split
  · rfl
  · exact (Table.get?_erase _ _ _).trans (if_neg (Ne.symm hpid))

theorem update_process?_of_ne (hpid : pid ≠ ev.pid) :
    (l.update policy ev).processes.get? pid = l.processes.get? pid := by
  cases (Alike.refl l ev).parallel policy with
  | stay left _ => rw [left]
  | change _ left _ => rw [left, change_process?_of_ne hpid]
  | join _ left _ =>
    rw [left]
    exact ((Table.get?_insert _ _ _ _).trans (if_neg (Ne.symm hpid))).trans
      (drop_process?_of_ne hpid)
  | drop left _ => rw [left, drop_process?_of_ne hpid]

theorem drop_bundle?_of_not_touches (hno : ¬ l.Touches ev uid) :
    (l.drop ev.pid).bundles.get? uid = l.bundles.get? uid :=
  bundle?_drop_of_ne fun _ hp hu => hno (hu ▸ touches_of_some hp)

theorem update_bundle?_of_not_touches (hno : ¬ l.Touches ev uid) :
    (l.update policy ev).bundles.get? uid = l.bundles.get? uid := by
  have htarget : ev.targetUid ≠ uid := fun hu => hno (.inl hu.symm)
  cases (Alike.refl l ev).parallel policy with
  | stay left _ => rw [left]
  | change _ left _ => rw [left, bundles_change]
  | join _ left _ =>
    rw [left]
    exact ((Table.get?_insert _ _ _ _).trans (if_neg htarget)).trans
      (drop_bundle?_of_not_touches hno)
  | drop left _ => rw [left, drop_bundle?_of_not_touches hno]

/-- A process that an event leaves behind belongs to a uid that the event touches. -/
theorem touches_of_update (hp : (l.update policy ev).processes.get? ev.pid = some p) :
    l.Touches ev p.uid := by
  have horigin : ProcessOrigin policy l (.event ev) ev.pid p := process?_after hp
  cases horigin with
  | kept _ before => exact touches_of_some before
  | started _ asked _ _ _ =>
    cases asked
    exact .inl rfl
  | changed _ asked _ _ _ q before _ =>
    cases asked
    have huid := (q.respond_ids ev.reason (l.bindingFor ev)).2
    exact huid ▸ touches_of_some before
  | expired _ asked _ _ _ _ _ _ => cases asked

theorem update_agreeAt (hno : ¬ l.Touches ev uid) : l.AgreeAt (l.update policy ev) uid := by
  refine ⟨update_bundle?_of_not_touches hno, ?_⟩
  rintro pid p rfl
  by_cases hpid : pid = ev.pid
  · subst hpid
    exact iff_of_false (fun hp => hno (touches_of_update hp)) (fun hp => hno (touches_of_some hp))
  · rw [update_process?_of_ne hpid]

/-! ### What becomes of the bundles -/

theorem Alike.bundleFor_eq (h : l.Alike l' ev) : l'.bundleFor policy ev = l.bundleFor policy ev := by
  unfold bundleFor
  rw [h.bundle ev.targetUid (.inl rfl)]

theorem Alike.bundleFor_drop_eq (h : l.Alike l' ev) (hnew : l.tracks ev.targetUid ev.pid = false) :
    (l'.drop ev.pid).bundleFor policy ev = (l.drop ev.pid).bundleFor policy ev := by
  rw [bundleFor_drop hnew, bundleFor_drop ((h.tracks_eq _).trans hnew), h.bundleFor_eq]

theorem Alike.drop_bundle? (h : l.Alike l' ev) (ht : l.Touches ev uid) :
    (l'.drop ev.pid).bundles.get? uid = (l.drop ev.pid).bundles.get? uid := by
  unfold drop
  rw [h.process]
  cases hp : l.processes.get? ev.pid with
  | none => exact h.bundle uid ht
  | some p =>
    have hrest : l'.rest p.uid ev.pid = l.rest p.uid ev.pid := by
      unfold rest
      rw [h.bundle p.uid (touches_of_some hp)]
    simp only [Table.get?_assign, hrest, h.bundle uid ht]

theorem Alike.update_bundle? (h : l.Alike l' ev) (ht : l.Touches ev uid) :
    (l'.update policy ev).bundles.get? uid = (l.update policy ev).bundles.get? uid := by
  cases h.parallel policy with
  | stay left right =>
    rw [left, right]
    exact h.bundle uid ht
  | change _ left right =>
    rw [left, right, bundles_change, bundles_change]
    exact h.bundle uid ht
  | join new left right =>
    rw [left, right]
    unfold add
    simp only [Table.get?_insert, h.bundleFor_drop_eq new, h.drop_bundle? ht]
  | drop left right =>
    rw [left, right]
    exact h.drop_bundle? ht

/-! ### What becomes of the process -/

/-- The processes that a bundle lists are there. -/
def Listed (l : Lifecycle) : Prop :=
  ∀ uid b pid, l.bundles.get? uid = some b → pid ∈ b.pids → l.tracks uid pid = true

/-- The event `ev` takes a token. -/
structure Arms (l : Lifecycle) (policy : Policy) (ev : Event) : Prop where
  timed : (ev.reason.isBoost && policy.timed) = true
  allowed : l.refusal? ev.targetUid ev.pid = none

theorem Listed.exists_of_allowed (hl : l.Listed) (hallowed : l.refusal? ev.targetUid ev.pid = none) :
    ∃ p, l.processes.get? ev.pid = some p := by
  unfold refusal? at hallowed
  cases hb : l.bundles.get? ev.targetUid with
  | none => simp [hb] at hallowed
  | some b =>
    by_cases hpid : ev.pid ∈ b.pids
    · obtain ⟨p, hp, -⟩ := tracks_eq_true_iff.mp (hl _ b _ hb hpid)
      exact ⟨p, hp⟩
    · simp [hb, hpid] at hallowed

theorem Arms.structural (h : l.Arms policy ev) : ev.reason.structural = false :=
  Reason.structural_of_isBoost ((Bool.and_eq_true _ _).mp h.timed).1

theorem Arms.tokenFor_eq (h : l.Arms policy ev) :
    l.tokenFor policy ev.reason = some (l.lastToken + 1) := if_pos h.timed

theorem tokenFor_of_not_arms (hno : ¬ l.Arms policy ev)
    (hallowed : l.refusal? ev.targetUid ev.pid = none) : l.tokenFor policy ev.reason = none :=
  if_neg fun htimed => hno ⟨htimed, hallowed⟩

theorem Arms.update_eq (h : l.Arms policy ev) (hp : l.processes.get? ev.pid = some p) :
    l.update policy ev =
      { l with
        processes := l.processes.insert ev.pid
          { p.respond ev.reason (l.bindingFor ev) with boost := some ⟨l.lastToken + 1, ev.reason⟩ }
        lastToken := l.lastToken + 1 } := by
  rw [update_of_change h.structural, h.allowed, if_neg (by simp), change_of_some hp, h.tokenFor_eq]
  rfl

theorem Arms.update_lastToken (h : l.Arms policy ev) (hl : l.Listed) :
    (l.update policy ev).lastToken = l.lastToken + 1 := by
  obtain ⟨p, hp⟩ := hl.exists_of_allowed h.allowed
  rw [h.update_eq hp]

theorem update_lastToken_of_not_arms (hno : ¬ l.Arms policy ev) :
    (l.update policy ev).lastToken = l.lastToken := by
  have hdrop : (l.drop ev.pid).lastToken = l.lastToken := by
    unfold drop
    split <;> rfl
  cases (Alike.refl l ev).parallel policy with
  | stay left _ => rw [left]
  | change allowed left _ =>
    rw [left]
    unfold change
    rw [tokenFor_of_not_arms hno allowed]
    split <;> rfl
  | join _ left _ =>
    rw [left]
    exact hdrop
  | drop left _ =>
    rw [left]
    exact hdrop

theorem Alike.arms_iff (h : l.Alike l' ev) : l'.Arms policy ev ↔ l.Arms policy ev :=
  ⟨fun ha => ⟨ha.timed, h.refusal?_eq ▸ ha.allowed⟩,
    fun ha => ⟨ha.timed, h.refusal?_eq.trans ha.allowed⟩⟩

theorem Alike.bindingFor_eq (h : l.Alike l' ev) : l'.bindingFor ev = l.bindingFor ev :=
  bindingFor_congr h.level

/-- The same token is taken, or none. -/
theorem Alike.tokenFor_eq (h : l.Alike l' ev) (hallowed : l.refusal? ev.targetUid ev.pid = none)
    (ht : l.Arms policy ev → l'.lastToken = l.lastToken) :
    l'.tokenFor policy ev.reason = l.tokenFor policy ev.reason := by
  by_cases harms : l.Arms policy ev
  · rw [harms.tokenFor_eq, (h.arms_iff.mpr harms).tokenFor_eq, ht harms]
  · rw [tokenFor_of_not_arms harms hallowed, tokenFor_of_not_arms
      (fun ha => harms (h.arms_iff.mp ha)) (h.refusal?_eq.trans hallowed)]

theorem Alike.update_process? (h : l.Alike l' ev)
    (ht : l.Arms policy ev → l'.lastToken = l.lastToken) :
    (l'.update policy ev).processes.get? ev.pid = (l.update policy ev).processes.get? ev.pid := by
  cases h.parallel policy with
  | stay left right =>
    rw [left, right]
    exact h.process
  | change allowed left right =>
    rw [left, right]
    cases hp : l.processes.get? ev.pid with
    | none =>
      have hp' := h.process.trans hp
      unfold change
      simp only [hp, hp']
    | some p =>
      rw [change_of_some hp, change_of_some (h.process.trans hp), h.bindingFor_eq,
        h.tokenFor_eq allowed ht, Table.get?_insert_self, Table.get?_insert_self]
  | join new left right =>
    rw [left, right]
    unfold add
    simp only [Table.get?_insert_self, h.bundleFor_drop_eq new]
  | drop left right =>
    rw [left, right]
    unfold Lifecycle.drop
    rw [h.process]
    cases hp : l.processes.get? ev.pid with
    | none => exact h.process
    | some p => simp only [Table.get?_erase_self]

/-- What becomes of the process of `ev` but for the token. -/
theorem Alike.update_armed (h : l.Alike l' ev) (harms : l.Arms policy ev) (hl : l.Listed) :
    ∃ q : TrackedProcess,
      (l.update policy ev).processes.get? ev.pid =
        some { q with boost := some ⟨l.lastToken + 1, ev.reason⟩ } ∧
      (l'.update policy ev).processes.get? ev.pid =
        some { q with boost := some ⟨l'.lastToken + 1, ev.reason⟩ } := by
  obtain ⟨p, hp⟩ := hl.exists_of_allowed harms.allowed
  refine ⟨p.respond ev.reason (l.bindingFor ev), ?_, ?_⟩
  · rw [harms.update_eq hp, Table.get?_insert_self]
  · rw [(h.arms_iff.mpr harms).update_eq (h.process.trans hp), Table.get?_insert_self,
      h.bindingFor_eq]

theorem Alike.update_lastToken (h : l.Alike l' ev) (hl : l.Listed) (policy : Policy) :
    (l'.update policy ev).lastToken + l.lastToken =
      (l.update policy ev).lastToken + l'.lastToken := by
  by_cases harms : l.Arms policy ev
  · obtain ⟨p, hp⟩ := hl.exists_of_allowed harms.allowed
    rw [harms.update_eq hp, (h.arms_iff.mpr harms).update_eq (h.process.trans hp)]
    show l'.lastToken + 1 + l.lastToken = l.lastToken + 1 + l'.lastToken
    omega
  · rw [update_lastToken_of_not_arms harms,
      update_lastToken_of_not_arms fun ha => harms (h.arms_iff.mp ha)]
    omega

/-! ### After another event -/

theorem AgreeAt.levelOf_eq (h : l.AgreeAt l' uid) (hl : l.Listed) : l'.levelOf uid = l.levelOf uid := by
  unfold levelOf
  rw [h.bundle]
  cases hb : l.bundles.get? uid with
  | none => rfl
  | some b =>
    have hmembers : b.pids.toList.filterMap l'.processes.get? =
        b.pids.toList.filterMap l.processes.get? := by
      refine List.filterMap_congr fun pid hpid => ?_
      obtain ⟨p, hp, hu⟩ := tracks_eq_true_iff.mp (hl uid b pid hb (IdSet.mem_toList.mp hpid))
      rw [hp, (h.process pid p hu).mpr hp]
    rw [Option.bind_some, Option.bind_some, hmembers]

/-- Neither of `a` and `b` touches what the other looks at. -/
structure Independent (l : Lifecycle) (a b : Event) : Prop where
  pids : a.pid ≠ b.pid
  left : ∀ uid, l.Touches a uid → ¬ l.Consults b uid
  right : ∀ uid, l.Touches b uid → ¬ l.Consults a uid

variable {a b : Event}

theorem Independent.symm (h : l.Independent a b) : l.Independent b a :=
  ⟨Ne.symm h.pids, h.right, h.left⟩

theorem Independent.alike (h : l.Independent a b) (hl : l.Listed) (policy : Policy) :
    l.Alike (l.update policy a) b where
  process := update_process?_of_ne (Ne.symm h.pids)
  bundle uid ht := update_bundle?_of_not_touches fun ha => h.left uid ha (.inl ht)
  level hr caller hc :=
    (update_agreeAt fun ha => h.left caller ha (.inr ⟨hr, hc⟩)).levelOf_eq hl

theorem Alike.touches_iff (h : l.Alike l' ev) (uid : Int) :
    l'.Touches ev uid ↔ l.Touches ev uid := by
  unfold Touches
  rw [h.tracks_eq]

/-- The bundles are those of the event that touches them. -/
theorem Independent.bundle?_after_both (h : l.Independent a b) (hl : l.Listed) (policy : Policy)
    (ht : l.Touches b uid) :
    ((l.update policy a).update policy b).bundles.get? uid =
      (l.update policy b).bundles.get? uid ∧
    ((l.update policy b).update policy a).bundles.get? uid =
      (l.update policy b).bundles.get? uid :=
  ⟨(h.alike hl policy).update_bundle? ht, update_bundle?_of_not_touches fun ha =>
    h.right uid ht (.inl (((h.symm.alike hl policy).touches_iff uid).mp ha))⟩

theorem Independent.bundles_comm (h : l.Independent a b) (hl : l.Listed) :
    ((l.update policy a).update policy b).bundles =
      ((l.update policy b).update policy a).bundles := by
  apply Table.ext_get?
  intro uid
  by_cases hb : l.Touches b uid
  · obtain ⟨hab, hba⟩ := h.bundle?_after_both hl policy hb
    exact hab.trans hba.symm
  · by_cases ha : l.Touches a uid
    · obtain ⟨hba, hab⟩ := h.symm.bundle?_after_both hl policy ha
      exact hab.trans hba.symm
    · have hb' : ¬ (l.update policy a).Touches b uid := fun ht =>
        hb (((h.alike hl policy).touches_iff uid).mp ht)
      have ha' : ¬ (l.update policy b).Touches a uid := fun ht =>
        ha (((h.symm.alike hl policy).touches_iff uid).mp ht)
      rw [update_bundle?_of_not_touches hb', update_bundle?_of_not_touches ha',
        update_bundle?_of_not_touches hb, update_bundle?_of_not_touches ha]

/-- A process that neither event is about. -/
theorem process?_of_ne_of_ne (ha : pid ≠ a.pid) (hb : pid ≠ b.pid) :
    ((l.update policy a).update policy b).processes.get? pid = l.processes.get? pid :=
  (update_process?_of_ne hb).trans (update_process?_of_ne ha)

theorem Independent.process?_comm (h : l.Independent a b) (hl : l.Listed)
    (hno : ¬ (l.Arms policy a ∧ l.Arms policy b)) :
    ((l.update policy a).update policy b).processes.get? b.pid =
      ((l.update policy b).update policy a).processes.get? b.pid := by
  have hkept : ((l.update policy b).update policy a).processes.get? b.pid =
      (l.update policy b).processes.get? b.pid := update_process?_of_ne (Ne.symm h.pids)
  rw [hkept]
  exact (h.alike hl policy).update_process? fun hb => update_lastToken_of_not_arms fun ha => hno ⟨ha, hb⟩

theorem Independent.processes_comm (h : l.Independent a b) (hl : l.Listed)
    (hno : ¬ (l.Arms policy a ∧ l.Arms policy b)) :
    ((l.update policy a).update policy b).processes =
      ((l.update policy b).update policy a).processes := by
  apply Table.ext_get?
  intro pid
  by_cases hb : pid = b.pid
  · subst hb
    exact h.process?_comm hl hno
  · by_cases ha : pid = a.pid
    · subst ha
      exact (h.symm.process?_comm hl fun hboth => hno hboth.symm).symm
    · rw [process?_of_ne_of_ne ha hb, process?_of_ne_of_ne hb ha]

theorem Independent.lastToken_comm (h : l.Independent a b) (hl : l.Listed) :
    ((l.update policy a).update policy b).lastToken =
      ((l.update policy b).update policy a).lastToken := by
  have hab := (h.alike hl policy).update_lastToken hl policy
  have hba := (h.symm.alike hl policy).update_lastToken hl policy
  omega

/-- If both arm a timer, the second has the second token. -/
theorem Independent.process?_armed (h : l.Independent a b) (hl : l.Listed)
    (ha : l.Arms policy a) (hb : l.Arms policy b) : ∃ q : TrackedProcess,
      ((l.update policy a).update policy b).processes.get? b.pid =
        some { q with boost := some ⟨l.lastToken + 2, b.reason⟩ } ∧
      ((l.update policy b).update policy a).processes.get? b.pid =
        some { q with boost := some ⟨l.lastToken + 1, b.reason⟩ } := by
  obtain ⟨q, hfirst, hsecond⟩ := (h.alike hl policy).update_armed hb hl
  have hlast : (l.update policy a).lastToken = l.lastToken + 1 := ha.update_lastToken hl
  rw [hlast] at hsecond
  exact ⟨q, hsecond, (update_process?_of_ne (Ne.symm h.pids)).trans hfirst⟩

end Lifecycle

end MemoryArbiter
