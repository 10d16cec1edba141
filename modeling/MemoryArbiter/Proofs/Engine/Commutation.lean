import MemoryArbiter.Proofs.Engine.Redelivery
import MemoryArbiter.Proofs.Engine.Tokens
import MemoryArbiter.Proofs.Lifecycle.Footprint
import MemoryArbiter.Proofs.Lifecycle.Isolation
import Mathlib.Data.List.Sort

/-! # Independent events commute

Two events about different processes can be taken in either order if neither touches a uid that the
other looks at.  They may share an account, even one that the first of them empties and the second
fills again.  If both arm a timer, the tokens tell the order; nothing else does.
-/

namespace MemoryArbiter

/-- The boost with the token `n` for `m`, and the other way round. -/
def Boost.exchange (m n : Nat) (b : Boost) : Boost :=
  { b with token := if b.token = m then n else if b.token = n then m else b.token }

theorem Boost.exchange_first (t : Nat) (reason : Reason) :
    Boost.exchange (t + 1) (t + 2) ⟨t + 1, reason⟩ = ⟨t + 2, reason⟩ := by
  unfold exchange
  simp

theorem Boost.exchange_second (t : Nat) (reason : Reason) :
    Boost.exchange (t + 1) (t + 2) ⟨t + 2, reason⟩ = ⟨t + 1, reason⟩ := by
  unfold exchange
  simp

theorem Boost.exchange_of_le {t : Nat} {b : Boost} (hle : b.token ≤ t) :
    Boost.exchange (t + 1) (t + 2) b = b := by
  unfold exchange
  rw [if_neg (by omega), if_neg (by omega)]

namespace Engine

variable {e e' e₁ e₂ : Engine} {a b ev : Event} {uid : Int}

/-! ### Independence -/

/-- The uid of `ev` and the owner of its process. -/
def Touches (e : Engine) (ev : Event) (uid : Int) : Prop :=
  uid = ev.targetUid ∨ e.Tracks uid ev.pid

/-- With these goes the caller of a binding. -/
def Consults (e : Engine) (ev : Event) (uid : Int) : Prop :=
  e.Touches ev uid ∨ ev.reason = .bindExtension ∧ ev.callerUid = some uid

structure Independent (e : Engine) (a b : Event) : Prop where
  pids : a.pid ≠ b.pid
  stays : a.reason ≠ .osAccountChanged
  stays' : b.reason ≠ .osAccountChanged
  left : ∀ uid, e.Touches a uid → ¬ e.Consults b uid
  right : ∀ uid, e.Touches b uid → ¬ e.Consults a uid

theorem Independent.symm (h : e.Independent a b) : e.Independent b a :=
  ⟨Ne.symm h.pids, h.stays', h.stays, h.right, h.left⟩

theorem lifecycle_touches_iff : e.lifecycle.Touches ev uid ↔ e.Touches ev uid :=
  or_congr Iff.rfl lifecycle_tracks_iff

theorem lifecycle_consults_iff : e.lifecycle.Consults ev uid ↔ e.Consults ev uid :=
  or_congr lifecycle_touches_iff Iff.rfl

theorem Independent.lifecycle (h : e.Independent a b) : e.lifecycle.Independent a b :=
  ⟨h.pids,
    fun uid ha hb => h.left uid (lifecycle_touches_iff.mp ha) (lifecycle_consults_iff.mp hb),
    fun uid hb ha => h.right uid (lifecycle_touches_iff.mp hb) (lifecycle_consults_iff.mp ha)⟩

theorem Sound.listed (h : e.Sound) : e.lifecycle.Listed := by
  intro uid b pid hb hpid
  rw [lifecycle_bundle?] at hb
  obtain ⟨c, hc, rfl⟩ := Option.map_eq_some_iff.mp hb
  exact lifecycle_tracks_iff.mpr ((h.mem_pids_iff hc).mp hpid)

theorem Sound.lifecycle_arms_iff (h : e.Sound) :
    e.lifecycle.Arms e.settings.policy ev ↔ e.Arms ev := by
  constructor
  · rintro harms
    obtain ⟨hboost, hperiod⟩ := (Bool.and_eq_true _ _).mp harms.timed
    have hallowed := harms.allowed
    rw [lifecycle_refusal?] at hallowed
    exact ⟨hboost, by simpa [Settings.policy] using hperiod,
      (h.accepts_change_iff harms.structural).mpr hallowed⟩
  · rintro ⟨hboost, hperiod, hacc⟩
    refine ⟨by simp [hboost, hperiod, Settings.policy], ?_⟩
    rw [lifecycle_refusal?]
    exact (h.accepts_change_iff (Reason.structural_of_isBoost hboost)).mp hacc

/-! ### The two orders -/

/-- `r` is answered alike by `e` and `e'`. -/
structure AnswersAlike (e e' : Engine) (r : Request) : Prop where
  verdict : ∀ x, (e'.step r).2 = .error x ↔ (e.step r).2 = .error x
  changes : (e'.reportOf r).changes = (e.reportOf r).changes

/-- The engine with two tokens exchanged. -/
def exchange (e : Engine) (m n : Nat) : Engine :=
  e.reboost (fun _ boost => boost.map (Boost.exchange m n)) e.lastToken

/-- The order of `a` and `b` makes no difference but for the tokens. -/
structure Commutes (e : Engine) (a b : Event) : Prop where
  first : e.AnswersAlike (e.after (.event b)) (.event a)
  second : e.AnswersAlike (e.after (.event a)) (.event b)
  state : ¬ (e.Arms a ∧ e.Arms b) →
    (e.after (.event b)).after (.event a) = (e.after (.event a)).after (.event b)
  exchanged : e.Arms a → e.Arms b → (e.after (.event b)).after (.event a) =
    ((e.after (.event a)).after (.event b)).exchange (e.lastToken + 1) (e.lastToken + 2)

theorem after_both_terms (ha : a.reason ≠ .osAccountChanged) (hb : b.reason ≠ .osAccountChanged) :
    e.SameTerms ((e.after (.event a)).after (.event b)) :=
  (update_terms ha).trans (update_terms hb)

theorem Sound.lifecycle_after_both (h : e.Sound) (a b : Event) :
    ((e.after (.event a)).after (.event b)).lifecycle =
      (e.lifecycle.update e.settings.policy a).update e.settings.policy b := by
  have hset : (e.after (.event a)).settings = e.settings := after_settings e _
  rw [(h.after _).lifecycle_after, h.lifecycle_after, hset]
  rfl

theorem Sound.agreeAt_after (h : e.Sound) (hstays : ev.reason ≠ .osAccountChanged)
    (hno : ¬ e.Touches ev uid) : e.AgreeAt (e.after (.event ev)) uid := by
  have hterms : e.SameTerms (e.after (.event ev)) := update_terms hstays
  refine h.agreeAt (h.after _) hterms.settings hterms.current ?_
  rw [h.lifecycle_after]
  exact Lifecycle.update_agreeAt fun ht => hno (lifecycle_touches_iff.mp ht)

/-! ### The states -/

theorem Sound.bundles_comm (h : e.Sound) (hind : e.Independent a b) :
    ((e.after (.event b)).after (.event a)).lifecycle.bundles =
      ((e.after (.event a)).after (.event b)).lifecycle.bundles := by
  rw [h.lifecycle_after_both, h.lifecycle_after_both]
  exact hind.symm.lifecycle.bundles_comm h.listed

theorem Sound.lastToken_comm (h : e.Sound) (hind : e.Independent a b) :
    ((e.after (.event b)).after (.event a)).lastToken =
      ((e.after (.event a)).after (.event b)).lastToken := by
  have hab := congrArg Lifecycle.lastToken (h.lifecycle_after_both a b)
  have hba := congrArg Lifecycle.lastToken (h.lifecycle_after_both b a)
  exact hba.trans ((hind.symm.lifecycle.lastToken_comm h.listed).trans hab.symm)

theorem Independent.terms (hind : e.Independent a b) :
    ((e.after (.event a)).after (.event b)).SameTerms ((e.after (.event b)).after (.event a)) :=
  (after_both_terms hind.stays hind.stays').symm.trans (after_both_terms hind.stays' hind.stays)

theorem Sound.comm (h : e.Sound) (hind : e.Independent a b) (hno : ¬ (e.Arms a ∧ e.Arms b)) :
    (e.after (.event b)).after (.event a) = (e.after (.event a)).after (.event b) := by
  refine ((h.after _).after _).eq_of_agreeAt ((h.after _).after _) hind.terms
    (Lifecycle.agreeAt_of_eq (h.bundles_comm hind) ?_) (h.lastToken_comm hind)
  rw [h.lifecycle_after_both, h.lifecycle_after_both]
  refine hind.symm.lifecycle.processes_comm h.listed fun hboth => hno ?_
  exact ⟨h.lifecycle_arms_iff.mp hboth.2, h.lifecycle_arms_iff.mp hboth.1⟩

theorem exchange_process? (e : Engine) (m n : Nat) (pid : Int) :
    (e.exchange m n).lifecycle.processes.get? pid = (e.lifecycle.processes.get? pid).map fun p =>
      { p with boost := p.boost.map (Boost.exchange m n) } := by
  unfold exchange
  rw [lifecycle_reboost, Table.get?_map]

/-- The boosts that wait already have older tokens. -/
theorem Tokened.exchange_process? (ht : e.Tokened) (pid : Int) :
    e.lifecycle.processes.get? pid = (e.lifecycle.processes.get? pid).map fun p =>
      { p with boost := p.boost.map (Boost.exchange (e.lastToken + 1) (e.lastToken + 2)) } := by
  rw [lifecycle_process?]
  cases hp : e.processes.get? pid with
  | none => rfl
  | some p =>
    have hboost : p.boost.map (Boost.exchange (e.lastToken + 1) (e.lastToken + 2)) = p.boost := by
      cases hb : p.boost with
      | none => rfl
      | some b =>
        have hle := ht.le pid b ((boost?_of_get? hp).trans hb)
        rw [Option.map_some, Boost.exchange_of_le hle]
    simp only [Option.map_some, TrackedProcess.unpriced, hboost]

theorem Sound.comm_exchanged (h : e.Sound) (ht : e.Tokened) (hind : e.Independent a b)
    (ha : e.Arms a) (hb : e.Arms b) : (e.after (.event b)).after (.event a) =
      ((e.after (.event a)).after (.event b)).exchange (e.lastToken + 1) (e.lastToken + 2) := by
  have hfirst : ((e.after (.event a)).after (.event b)).Sound := (h.after _).after _
  have ha' := h.lifecycle_arms_iff.mpr ha
  have hb' := h.lifecycle_arms_iff.mpr hb
  refine hfirst.reboost.eq_of_agreeAt ((h.after _).after _)
    ⟨hind.terms.settings, hind.terms.current, hind.terms.previous⟩
    (Lifecycle.agreeAt_of_eq (h.bundles_comm hind) (Table.ext_get? fun pid => ?_))
    (h.lastToken_comm hind)
  -- of the processes only the two that are boosted have one of the two tokens
  refine Eq.trans ?_ (exchange_process? _ _ _ _).symm
  rw [h.lifecycle_after_both, h.lifecycle_after_both]
  by_cases hpb : pid = b.pid
  · subst hpb
    obtain ⟨q, hab, hba⟩ := hind.lifecycle.process?_armed h.listed ha' hb'
    have hsecond := Boost.exchange_second e.lastToken b.reason
    rw [hab, hba]
    exact congrArg (fun x => some { q with boost := some x }) hsecond.symm
  · by_cases hpa : pid = a.pid
    · subst hpa
      obtain ⟨q, hba, hab⟩ := hind.symm.lifecycle.process?_armed h.listed hb' ha'
      have hfirst := Boost.exchange_first e.lastToken a.reason
      rw [hab, hba]
      exact congrArg (fun x => some { q with boost := some x }) hfirst.symm
    · rw [Lifecycle.process?_of_ne_of_ne hpa hpb, Lifecycle.process?_of_ne_of_ne hpb hpa]
      exact ht.exchange_process? pid

/-! ### Answers -/

theorem Sound.step_error_iff_of_alike (h : e.Sound) (h' : e'.Sound)
    (hstays : ev.reason ≠ .osAccountChanged) (ha : e.lifecycle.Alike e'.lifecycle ev) (x : Rejection) :
    (e'.step (.event ev)).2 = .error x ↔ (e.step (.event ev)).2 = .error x := by
  have hs : (Request.event ev).isSwitch = false := by simpa [Request.isSwitch] using hstays
  rw [h'.step_error_iff_lifecycle hs, h.step_error_iff_lifecycle hs, ha.refuses?_eq]

/-- The changes of a report are no more than what they tell. -/
theorem Tells.changes_eq {report report' : StepReport} (h : e.Tells e₁ report)
    (h' : e'.Tells e₂ report') (hsame : ∀ uid, e'.changeTo e₂ uid = e.changeTo e₁ uid) :
    report'.changes = report.changes := by
  have hirrefl : Std.Irrefl fun c d : Change => c.uid < d.uid := ⟨fun c => Int.lt_irrefl c.uid⟩
  have hantisymm : Std.Antisymm fun c d : Change => c.uid < d.uid :=
    ⟨fun c d hcd hdc => absurd hcd (Int.lt_asymm hdc)⟩
  refine List.Pairwise.eq_of_mem_iff (List.pairwise_map.mp h'.ascending)
    (List.pairwise_map.mp h.ascending) fun c => ?_
  rw [h'.mem_changes, h.mem_changes, hsame]

theorem Sound.standing?_comm (h : e.Sound) (ht : e.Tokened) (hind : e.Independent a b) (uid : Int) :
    ((e.after (.event b)).after (.event a)).standing? uid =
      ((e.after (.event a)).after (.event b)).standing? uid := by
  by_cases hboth : e.Arms a ∧ e.Arms b
  · rw [h.comm_exchanged ht hind hboth.1 hboth.2]
    rfl
  · rw [h.comm hind hboth]

/-- What `b` changes is no matter of whether `a` has come first. -/
theorem Sound.changeTo_eq (h : e.Sound) (ht : e.Tokened) (hind : e.Independent a b) (uid : Int) :
    (e.after (.event a)).changeTo ((e.after (.event a)).after (.event b)) uid =
      e.changeTo (e.after (.event b)) uid := by
  have halike : ∀ {x y : Event}, e.Independent x y →
      ((e.after (.event x)).Touches y uid ↔ e.Touches y uid) := by
    intro x y hxy
    have hl := (hxy.lifecycle.alike h.listed e.settings.policy).touches_iff uid
    rw [← lifecycle_touches_iff, ← lifecycle_touches_iff, h.lifecycle_after]
    exact hl
  by_cases hb : e.Touches b uid
  · -- `a` leaves the bundle alone, whether it comes before `b` or after it
    have ha : ¬ e.Touches a uid := fun ha => hind.left uid ha (.inl hb)
    have hbefore := (h.agreeAt_after hind.stays ha).standing?
    have hafter := ((h.after (.event b)).agreeAt_after hind.stays
      fun ha' => ha ((halike hind.symm).mp ha')).standing?
    rw [h.standing?_comm ht hind] at hafter
    unfold changeTo
    rw [hbefore, hafter]
  · have hafter := (h.after (.event a)).agreeAt_after hind.stays'
      fun hb' => hb ((halike hind).mp hb')
    rw [changeTo_of_eq hafter.standing?, changeTo_of_eq (h.agreeAt_after hind.stays' hb).standing?]

theorem Sound.answersAlike (h : e.Sound) (ht : e.Tokened) (hind : e.Independent a b) :
    e.AnswersAlike (e.after (.event a)) (.event b) := by
  refine ⟨?_, (h.tells _).changes_eq ((h.after _).tells _) (h.changeTo_eq ht hind)⟩
  refine h.step_error_iff_of_alike (h.after _) hind.stays' ?_
  rw [h.lifecycle_after]
  exact hind.lifecycle.alike h.listed _

theorem Sound.commutes (h : e.Sound) (ht : e.Tokened) (hind : e.Independent a b) :
    e.Commutes a b :=
  ⟨h.answersAlike ht hind.symm, h.answersAlike ht hind, h.comm hind, h.comm_exchanged ht hind⟩

theorem run_commutes (settings : Settings) (requests : List Request) (a b : Event)
    (h : (run settings requests).Independent a b) : (run settings requests).Commutes a b :=
  (run_sound settings requests).commutes (run_tokened settings requests) h

theorem touches_iff_of_tracks (htr : e.Tracks ev.targetUid ev.pid) :
    e.Touches ev uid ↔ uid = ev.targetUid := by
  obtain ⟨p, hp, hu⟩ := htr
  refine ⟨?_, .inl⟩
  rintro (rfl | ⟨q, hq, rfl⟩)
  · rfl
  · rw [← hu, Option.some.inj (hq.symm.trans hp)]

/-- Two boosts in the foreground account, one of them a binding by a third bundle. -/
theorem commutes_but_for_tokens : ∃ (settings : Settings) (requests : List Request) (a b : Event),
    (run settings requests).Independent a b ∧ (run settings requests).Arms a ∧
      (run settings requests).Arms b ∧ (run settings requests).Commutes a b ∧
      ((run settings requests).after (.event b)).after (.event a) ≠
        ((run settings requests).after (.event a)).after (.event b) := by
  let requests : List Request :=
    [.switchTo 100, .sent .createProcess 1 20000001 none, .sent .createProcess 2 20000002 none,
      .sent .createProcess 3 20000003 none, .sent .background 1 20000001 none]
  let a : Event := { pid := 1, targetUid := 20000001, reason := .abilityStart }
  let b : Event :=
    { pid := 2, callerUid := some 20000003, targetUid := 20000002, reason := .bindExtension }
  have hsound := run_sound {} requests
  have hta : (run {} requests).Tracks a.targetUid a.pid := any_uid_iff.mp (by decide)
  have htb : (run {} requests).Tracks b.targetUid b.pid := any_uid_iff.mp (by decide)
  have hind : (run {} requests).Independent a b := by
    refine ⟨by decide, by decide, by decide, ?_, ?_⟩
    · rintro uid ha (hb | ⟨-, hb⟩)
      · rw [touches_iff_of_tracks hta] at ha
        rw [touches_iff_of_tracks htb] at hb
        exact absurd (ha.symm.trans hb) (by decide)
      · rw [touches_iff_of_tracks hta] at ha
        exact absurd (hb.trans (congrArg some ha)) (by decide)
    · rintro uid hb (ha | ⟨ha, -⟩)
      · rw [touches_iff_of_tracks hta] at ha
        rw [touches_iff_of_tracks htb] at hb
        exact absurd (ha.symm.trans hb) (by decide)
      · exact absurd ha (by decide)
  have ha : (run {} requests).Arms a :=
    ⟨rfl, by decide, (hsound.accepts_change_iff rfl).mpr (by decide)⟩
  have hb : (run {} requests).Arms b :=
    ⟨rfl, by decide, (hsound.accepts_change_iff rfl).mpr (by decide)⟩
  exact ⟨{}, requests, a, b, hind, ha, hb, run_commutes {} requests a b hind, by decide⟩

/-- The only bundle of an account goes and another one comes. -/
example :
    let e := run {} [.switchTo 100, .sent .createProcess 1 20000001 none]
    let leave : Request := .sent .processTerminated 1 20000001 none
    let join : Request := .sent .createProcess 2 20000002 none
    (e.after leave).accounts.get? 100 = none ∧
      (e.after leave).after join = (e.after join).after leave := by decide

end Engine

end MemoryArbiter
