import MemoryArbiter.Config.Defect
import MemoryArbiter.Proofs.Engine.Range
import MemoryArbiter.Proofs.Engine.Recomputation
import MemoryArbiter.Proofs.Lifecycle.Isolation
import Mathlib.Data.List.Pairwise

/-! # Which shifts keep the priorities on the scale

The check of a configuration asks of the shift only that it is not negative.  Unless it is clamped, a
large one takes bundles of the foreground account below the range of the kernel, where their scores
are cut off, and past the pinned bundles.
-/

namespace MemoryArbiter

/-- The least priority of a bundle that is not pinned. -/
def Settings.lowest (s : Settings) : Int := if s.clamp then Level.foreground else -s.shift

theorem Settings.le_lowest_iff {s : Settings} {bound : Int} (hbound : bound ≤ Level.foreground) :
    bound ≤ s.lowest ↔ s.clamp = true ∨ s.shift ≤ -bound := by
  unfold lowest
  cases s.clamp with
  | true => simpa using hbound
  | false =>
    simp only [Bool.false_eq_true, if_false, false_or]
    omega

namespace Engine

/-- Every priority is one that the kernel can hold, so that it is written as it is. -/
def InScoreRange (e : Engine) : Prop :=
  ∀ uid b, e.bundles.get? uid = some b →
    oomScoreMin ≤ b.priority ∧ b.priority ≤ oomScoreMax ∧ oomScore b.priority = b.priority

/-- In the listing no pinned bundle stands behind one that is not. -/
def PinnedFirst (e : Engine) : Prop :=
  e.snapshot.Pairwise fun a b => b.pinned = true → a.pinned = true

instance (e : Engine) : Decidable e.PinnedFirst := inferInstanceAs (Decidable (List.Pairwise _ _))

variable {e : Engine} {uid : Int} {b : Bundle} {s : Settings}

/-! ### Which bundles are pinned -/

/-- The bundles with the pinned names, and no others, are pinned. -/
def PinnedByName (e : Engine) : Prop :=
  ∀ uid b, e.bundles.get? uid = some b → b.pinned = e.settings.pinned.contains b.name

theorem Sound.pinnedByName_after (h : e.Sound) (hn : e.PinnedByName) (r : Request) :
    (e.after r).PinnedByName := by
  intro uid b hb
  have hbefore : ∀ c, e.lifecycle.bundles.get? uid = some c →
      c.pinned = e.settings.pinned.contains c.name := by
    intro c hc
    rw [lifecycle_bundle?] at hc
    obtain ⟨d, hd, rfl⟩ := Option.map_eq_some_iff.mp hc
    exact hn uid d hd
  have horigin := Lifecycle.bundle?_after (h.lifecycle_after_bundle? hb)
  rw [after_settings]
  show b.unpriced.pinned = e.settings.pinned.contains b.unpriced.name
  generalize b.unpriced = l at horigin
  cases horigin with
  | kept _ c hc hname hstate hpin => rw [hpin, hname, hbefore c hc]
  | marked c hc => exact hbefore c hc
  | joined ev asked hr huid hnew =>
    subst huid
    unfold Lifecycle.bundleFor
    cases hc : e.lifecycle.bundles.get? ev.targetUid with
    | some c => exact hbefore c hc
    | none => rfl

theorem run_pinnedByName (s : Settings) (requests : List Request) :
    (run s requests).PinnedByName :=
  run_sound_induction (fun _ _ h => nomatch h) (fun _ r h hn => h.pinnedByName_after hn r) requests

/-! ### Above the least priority -/

theorem lowest_le_moved {level offset : Int} (hlevel : level ∈ Level.ordinary)
    (hfits : FitsInt32 (level + offset)) (hlow : -s.shift ≤ offset) (hhigh : offset ≤ 0) :
    s.lowest ≤ moved level offset s.clamp ∧ moved level offset s.clamp ≤ Level.suspend := by
  obtain ⟨hmin, hmax⟩ := Level.bounds_of_mem_ordinary hlevel
  have hzero : Level.foreground = 0 := rfl
  rw [moved_of_fits hfits]
  unfold Settings.lowest
  cases s.clamp with
  | true =>
    simp only [Bool.true_and, decide_eq_true_eq, if_true]
    split <;> omega
  | false =>
    simp only [Bool.false_and, Bool.false_eq_true, if_false]
    omega

theorem Sound.lowest_le (h : e.Sound) (hr : e.Regular) (hshift : 0 ≤ e.settings.shift)
    (hb : e.bundles.get? uid = some b) (hpin : b.pinned = false) :
    e.settings.lowest ≤ b.priority ∧ b.priority ≤ Level.suspend := by
  obtain ⟨pid, p, hp, hu, hprio⟩ := ((h.priced uid).bundle b hb).attained
  have hlevel := (hr.ordinary pid p b hp (hu ▸ hb) hpin).level
  obtain ⟨hlow, hhigh⟩ := dueOffset_bounds hshift (accountOf p.uid)
  rw [← hprio, (h.priced uid).process pid p b hp hu hb]
  unfold due
  rw [hpin]
  exact lowest_le_moved hlevel (fitsInt32_moved (Settings.roomy_of_nonneg hshift) hlevel _) hlow hhigh

theorem Sound.inScoreRange (h : e.Sound) (hr : e.Regular) (hshift : 0 ≤ e.settings.shift)
    (hlow : oomScoreMin ≤ e.settings.lowest) : e.InScoreRange := by
  intro uid b hb
  have hrange : oomScoreMin ≤ b.priority ∧ b.priority ≤ oomScoreMax := by
    cases hpin : b.pinned with
    | true =>
      rw [h.priority_of_pinned hb hpin]
      decide
    | false =>
      obtain ⟨hmin, hmax⟩ := h.lowest_le hr hshift hb hpin
      have hsuspend : Level.suspend ≤ oomScoreMax := by decide
      exact ⟨Int.le_trans hlow hmin, Int.le_trans hmax hsuspend⟩
  exact ⟨hrange.1, hrange.2, oomScore_of_mem hrange.1 hrange.2⟩

theorem Sound.pinnedFirst (h : e.Sound) (hr : e.Regular) (hn : e.PinnedByName)
    (hshift : 0 ≤ e.settings.shift)
    (hlow : Level.system < e.settings.lowest ∨ e.settings.pinned = []) : e.PinnedFirst := by
  refine h.snapshot_pairwise.imp_of_mem ?_
  intro x y hx hy hbefore hpin
  obtain ⟨u, b, hb, rfl⟩ := h.mem_snapshot_iff.mp hx
  obtain ⟨v, c, hc, rfl⟩ := h.mem_snapshot_iff.mp hy
  have hpriority : c.priority = Level.system := h.priority_of_pinned hc hpin
  rcases hlow with hlow | hnone
  · cases hfree : b.pinned with
    | true => exact hfree
    | false =>
      have hmin := (h.lowest_le hr hshift hb hfree).1
      have hle : b.priority < c.priority ∨ b.priority = c.priority ∧ b.uid < c.uid := hbefore
      omega
  · have hlisted : c.pinned = e.settings.pinned.contains c.name := hn v c hc
    rw [hnone] at hlisted
    exact nomatch hlisted.symm.trans hpin

/-! ### The least priority is attained -/

def creation (pid uid : Int) (name : String) : Event :=
  { pid := pid, targetUid := uid, bundleName := name, reason := .createProcess }

/-- Two bundles of one account, which is then brought to the foreground. -/
def promotion (first second : String) : List Request :=
  [.event (creation 1 20000001 first), .event (creation 2 20000002 second), .switchTo 100]

theorem run_promotion (s : Settings) (first second : String) : run s (promotion first second) =
    ((run s [.event (creation 1 20000001 first), .event (creation 2 20000002 second)]).switchTo
      100).1 :=
  run_concat s [.event (creation 1 20000001 first), .event (creation 2 20000002 second)] _

theorem lifecycle_promotion (s : Settings) (first second : String) :
    (run s (promotion first second)).lifecycle =
      (({} : Lifecycle).add s.policy (creation 1 20000001 first)).add s.policy
        (creation 2 20000002 second) := by
  rw [run_lifecycle]
  rfl

theorem promotion_bundle? (s : Settings) (first second : String) {uid : Int} {b : Bundle}
    (hb : (run s (promotion first second)).lifecycle.bundles.get? uid = some b) :
    ∃ c, (run s (promotion first second)).bundles.get? uid = some c ∧ c.pinned = b.pinned := by
  rw [lifecycle_bundle?] at hb
  obtain ⟨c, hc, rfl⟩ := Option.map_eq_some_iff.mp hb
  exact ⟨c, hc, rfl⟩

theorem promotion_first (s : Settings) (first second : String) : ∃ b,
    (run s (promotion first second)).bundles.get? 20000001 = some b ∧
      b.pinned = s.pinned.contains first := by
  apply promotion_bundle? s first second (b := { ({} : Lifecycle).bundleFor s.policy
    (creation 1 20000001 first) with pids := IdSet.insert ∅ 1 })
  rw [lifecycle_promotion]
  rfl

theorem promotion_second (s : Settings) (first second : String) : ∃ b,
    (run s (promotion first second)).bundles.get? 20000002 = some b ∧
      b.pinned = s.pinned.contains second := by
  apply promotion_bundle? s first second (b := { ({} : Lifecycle).bundleFor s.policy
    (creation 2 20000002 second) with pids := IdSet.insert ∅ 2 })
  rw [lifecycle_promotion]
  rfl

/-- The priority of the first bundle, if its name is not pinned, is the least one. -/
theorem promotion_lowest (hshift : 0 ≤ s.shift) {first : String} (second : String)
    (hfirst : s.pinned.contains first = false) {b : Bundle}
    (hb : (run s (promotion first second)).bundles.get? 20000001 = some b)
    (hpin : b.pinned = false) : b.priority ≤ s.lowest := by
  have hsound := run_sound s (promotion first second)
  have hset := run_settings s (promotion first second)
  have hcurrent : (run s (promotion first second)).current = some 100 := by
    rw [run_promotion]
    exact switchTo_current _ 100
  have hprocess : (run s (promotion first second)).lifecycle.processes.get? 1 = some
      (TrackedProcess.start 1 20000001
        (if s.pinned.contains first then Level.system else Level.foreground)).unpriced := by
    rw [lifecycle_promotion]
    rfl
  rw [hfirst, lifecycle_process?] at hprocess
  obtain ⟨p, hp, hstart⟩ := Option.map_eq_some_iff.mp hprocess
  have huid : p.uid = 20000001 := congrArg TrackedProcess.uid hstart
  have hlevel : p.level = Level.foreground := congrArg TrackedProcess.level hstart
  have hpriority := (hsound.priced _).process 1 p b hp huid hb
  have hle := ((hsound.priced _).bundle b hb).le 1 p hp huid
  have hlowest : p.priority = s.lowest := by
    have haccount : accountOf 20000001 = 100 := by decide
    have hzero : Level.foreground = 0 := rfl
    have hfits : FitsInt32 (Level.foreground + -s.shift) := by
      rw [hzero, Int.zero_add]
      exact fitsInt32_neg hshift s.shift_fits.2
    rw [hpriority]
    unfold due dueOffset Settings.lowest
    rw [hpin, hcurrent, hset, hlevel, huid, haccount, if_pos rfl,
      (Settings.roomy_of_nonneg hshift).offset_eq, moved_of_fits hfits]
    cases s.clamp with
    | true =>
      simp only [Bool.false_eq_true, if_false, if_true, Bool.true_and, decide_eq_true_eq]
      split <;> omega
    | false =>
      simp only [Bool.false_eq_true, if_false, Bool.false_and]
      omega
  rw [← hlowest]
  exact hle

theorem exists_free_name (names : List String) : ∃ name, names.contains name = false := by
  obtain ⟨n, hn⟩ : ∃ n, ∀ name ∈ names, name.length < n := by
    induction names with
    | nil => exact ⟨0, fun _ h => nomatch h⟩
    | cons first rest ih =>
      obtain ⟨n, hn⟩ := ih
      refine ⟨max n (first.length + 1), List.forall_mem_cons.mpr ⟨by omega, ?_⟩⟩
      exact fun name hname => Nat.lt_of_lt_of_le (hn name hname) (Nat.le_max_left ..)
  refine ⟨String.ofList (List.replicate n 'a'), ?_⟩
  rw [← Bool.not_eq_true, List.contains_iff_mem]
  intro hmem
  have hlt := hn _ hmem
  rw [String.length_ofList, List.length_replicate] at hlt
  exact Nat.lt_irrefl n hlt

theorem forall_inScoreRange_iff (hshift : 0 ≤ s.shift) :
    (∀ requests, (run s requests).InScoreRange) ↔ oomScoreMin ≤ s.lowest := by
  constructor
  · intro h
    obtain ⟨name, hname⟩ := exists_free_name s.pinned
    obtain ⟨b, hb, hpin⟩ := promotion_first s name name
    have hlow := promotion_lowest hshift name hname hb (hpin.trans hname)
    exact Int.le_trans (h _ _ b hb).1 hlow
  · intro hlow requests
    rw [← run_settings s requests] at hshift hlow
    exact (run_sound s requests).inScoreRange (run_regular s requests) hshift hlow

theorem lowest_of_pinnedFirst (hshift : 0 ≤ s.shift) (h : ∀ requests, (run s requests).PinnedFirst) :
    Level.system < s.lowest ∨ s.pinned = [] := by
  cases hpinned : s.pinned with
  | nil => exact .inr rfl
  | cons pinned others =>
    refine .inl (Int.not_le.mp fun hlow => ?_)
    obtain ⟨name, hname⟩ := exists_free_name s.pinned
    have hsound := run_sound s (promotion name pinned)
    obtain ⟨b, hb, hbpin⟩ := promotion_first s name pinned
    obtain ⟨c, hc, hcpin⟩ := promotion_second s name pinned
    rw [hname] at hbpin
    rw [hpinned, List.contains_cons, BEq.rfl, Bool.true_or] at hcpin
    have hbprio := promotion_lowest hshift pinned hname hb hbpin
    have hcprio := hsound.priority_of_pinned hc hcpin
    have hbuid : b.row.uid = 20000001 := ((hsound.housed _).bundle b hb).1
    have hcuid : c.row.uid = 20000002 := ((hsound.housed _).bundle c hc).1
    -- the two rows stand in the one order or the other
    let R (x y : BundleRow) : Prop :=
      (x.priority < y.priority ∨ x.priority = y.priority ∧ x.uid < y.uid) ∧
        (y.pinned = true → x.pinned = true)
    have hpairs : (run s (promotion name pinned)).snapshot.Pairwise fun x y => R x y ∨ R y x :=
      (hsound.snapshot_pairwise.and (h _)).imp .inl
    have hsymm : Std.Symm fun x y => R x y ∨ R y x := ⟨fun _ _ => Or.symm⟩
    have hne : b.row ≠ c.row := by
      intro hsame
      rw [hsame, hcuid] at hbuid
      cases hbuid
    rcases hpairs.forall (hsound.mem_snapshot_iff.mpr ⟨_, b, hb, rfl⟩)
      (hsound.mem_snapshot_iff.mpr ⟨_, c, hc, rfl⟩) hne with ⟨-, hpin⟩ | ⟨hbefore, -⟩
    · exact nomatch hbpin.symm.trans (hpin hcpin)
    · have hle : c.priority < b.priority ∨ c.priority = b.priority ∧ c.row.uid < b.row.uid := hbefore
      omega

theorem forall_pinnedFirst_iff (hshift : 0 ≤ s.shift) :
    (∀ requests, (run s requests).PinnedFirst) ↔ Level.system < s.lowest ∨ s.pinned = [] := by
  refine ⟨lowest_of_pinnedFirst hshift, fun hlow requests => ?_⟩
  rw [← run_settings s requests] at hshift hlow
  exact (run_sound s requests).pinnedFirst (run_regular s requests) (run_pinnedByName s requests)
    hshift hlow

end Engine

/-! ### Configurations without a defect -/

namespace Config

theorem shift_nonneg {c : Config} (hc : c.defect? = none) : 0 ≤ c.account.priorityShift := by
  unfold defect? at hc
  grind

/-- What a configuration without a defect makes of the scale, in every run of an engine that it sets
up: it is kept if the shift is clamped, or no larger than the distance from the foreground to the
end of the kernel's range; the pinned bundles stay ahead if the shift is smaller than that. -/
theorem run_scale_iff (c : Config) (hc : c.defect? = none) :
    ((∀ requests, (Engine.run c.settings requests).InScoreRange) ↔
      c.account.clampShiftedPriority = true ∨ c.account.priorityShift ≤ -oomScoreMin) ∧
    ((∀ requests, (Engine.run c.settings requests).PinnedFirst) ↔
      c.account.clampShiftedPriority = true ∨ c.account.priorityShift < -Level.system ∨
        c.pinnedBundles = []) := by
  have hshift : 0 ≤ c.settings.shift := shift_nonneg hc
  have habove : Level.system < c.settings.lowest ↔
      c.account.clampShiftedPriority = true ∨ c.account.priorityShift < -Level.system := by
    have hnext : Level.system + 1 ≤ Level.foreground := by decide
    rw [← Int.add_one_le_iff, Settings.le_lowest_iff hnext]
    refine or_congr_right ?_
    show c.account.priorityShift ≤ -(Level.system + 1) ↔ _
    omega
  constructor
  · rw [Engine.forall_inScoreRange_iff hshift, Settings.le_lowest_iff (by decide)]
    rfl
  · rw [Engine.forall_pinnedFirst_iff hshift, habove, or_assoc]
    rfl

/-- The default shift is far from either bound. -/
theorem default_on_scale : ({} : Config).defect? = none ∧
    ∀ requests, (Engine.run ({} : Config).settings requests).InScoreRange ∧
      (Engine.run ({} : Config).settings requests).PinnedFirst := by
  have hvalid : ({} : Config).defect? = none := by decide
  obtain ⟨hrange, hfirst⟩ := run_scale_iff {} hvalid
  exact ⟨hvalid, fun requests => ⟨hrange.mpr (.inr (by decide)) requests,
    hfirst.mpr (.inr (.inl (by decide))) requests⟩⟩

/-- A shift of 2000 has no defect, but takes a bundle of the foreground account to -2000: its score is
cut off at -1000, and it is listed ahead of the pinned one. -/
theorem off_scale_past_check : ∃ (c : Config) (requests : List Request), c.defect? = none ∧
    ¬ (Engine.run c.settings requests).InScoreRange ∧
      ¬ (Engine.run c.settings requests).PinnedFirst := by
  let c : Config := { pinnedBundles := ["shell"], account := { priorityShift := 2000 } }
  let e := Engine.run c.settings (Engine.promotion "mail" "shell")
  have hmail : (e.bundles.get? 20000001).map Bundle.priority = some (-2000) := by decide
  refine ⟨c, Engine.promotion "mail" "shell", by decide, fun hrange => ?_, by decide⟩
  obtain ⟨b, hb, hprio⟩ := Option.map_eq_some_iff.mp hmail
  have hlow := (hrange 20000001 b hb).1
  rw [hprio] at hlow
  exact absurd hlow (by decide)

end Config

end MemoryArbiter
