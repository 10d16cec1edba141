import MemoryArbiter.Proofs.Lifecycle.Vocabulary

/-! # The range of the priorities

With the few levels that occur, an offset between `-shift` and 0 keeps every priority between
`-shift` and the level of a suspended process.  Nothing that is computed on the way needs more than
32 bits, whatever shift that is not negative is set.  A negative one may be so large that a sum wraps
around; `Settings.Roomy` tells when none does.
-/

namespace MemoryArbiter

namespace Level

def Spans (shift priority : Int) : Prop :=
  priority = system ∨ -shift ≤ priority ∧ priority ≤ suspend

/-- The sum of a level and an offset has room, if the highest level has. -/
theorem fitsInt32_add {level offset : Int} (hlevel : level ∈ ordinary)
    (hlow : Text.minInt32 ≤ offset) (hhigh : suspend + offset ≤ Text.maxInt32) :
    FitsInt32 (level + offset) := by
  obtain ⟨hmin, hmax⟩ := bounds_of_mem_ordinary hlevel
  have hzero : foreground = 0 := rfl
  exact ⟨by omega, by omega⟩

theorem spans_moved {shift level offset : Int} {clamp : Bool} (hlevel : level ∈ ordinary)
    (hfits : FitsInt32 (level + offset)) (hlow : -shift ≤ offset) (hhigh : offset ≤ 0) :
    Spans shift (moved level offset clamp) := by
  obtain ⟨hmin, hmax⟩ := bounds_of_mem_ordinary hlevel
  have hzero : foreground = 0 := rfl
  refine .inr ?_
  rw [moved_of_fits hfits]
  split <;> omega

end Level

/-! ### Offsets -/

theorem minInt32_le_neg {n : Int} (h : n ≤ Text.maxInt32) : Text.minInt32 ≤ -n := by
  have hmin : Text.minInt32 ≤ -Text.maxInt32 := by decide
  omega

theorem fitsInt32_of_bounds {n shift : Int} (hshift : shift ≤ Text.maxInt32) (hlow : -shift ≤ n)
    (hhigh : n ≤ Level.suspend) : FitsInt32 n :=
  ⟨Int.le_trans (minInt32_le_neg hshift) hlow, Int.le_trans hhigh (by decide)⟩

theorem fitsInt32_neg {shift : Int} (hshift : 0 ≤ shift) (hmax : shift ≤ Text.maxInt32) :
    FitsInt32 (-shift) := by
  have hsuspend : 0 ≤ Level.suspend := by decide
  exact fitsInt32_of_bounds hmax (Int.le_refl _) (by omega)

theorem Account.offset_bounds {a : Account} (hshift : 0 ≤ a.shift) (hmax : a.shift ≤ Text.maxInt32) :
    -a.shift ≤ a.offset ∧ a.offset ≤ 0 := by
  unfold offset
  rw [wrapInt32_of_fits (fitsInt32_neg hshift hmax)]
  split <;> omega

namespace Settings

variable {s : Settings}

/-- Neither the negation of the shift nor its difference from any level that occurs wraps around. -/
def Roomy (s : Settings) : Prop := Level.suspend - s.shift ≤ Text.maxInt32

theorem roomy_of_nonneg (hshift : 0 ≤ s.shift) : s.Roomy := by
  have hmax : Level.suspend ≤ Text.maxInt32 := by decide
  unfold Roomy
  omega

theorem offset_of_fits (h : FitsInt32 (-s.shift)) : s.offset = -s.shift := wrapInt32_of_fits h

theorem Roomy.offset_eq (h : s.Roomy) : s.offset = -s.shift := by
  have hsuspend : 0 ≤ Level.suspend := by decide
  unfold Roomy at h
  exact offset_of_fits ⟨minInt32_le_neg s.shift_fits.2, by omega⟩

end Settings

namespace Engine

variable {e : Engine} {pid : Int} {p : TrackedProcess}

/-- All processes are at levels of the scale: those of pinned bundles at `Level.system`, with
nothing asserted and nothing pending, the others at the levels that signals and states can give. -/
def OnScale (e : Engine) : Prop :=
  ∀ pid p, e.processes.get? pid = some p → ∃ b, e.bundles.get? p.uid = some b ∧
    (b.pinned = true → p.Untouched ∧ p.priority = Level.system) ∧ (b.pinned = false → p.Regular)

/-- The priorities are in the span of the shift, and so is all that goes into them. -/
structure Ranged (e : Engine) : Prop where
  process : ∀ pid p, e.processes.get? pid = some p → Level.Spans e.settings.shift p.priority
  bundle : ∀ uid b, e.bundles.get? uid = some b → Level.Spans e.settings.shift b.priority
  negated : ∀ id a, e.accounts.get? id = some a → FitsInt32 (-a.shift)
  /-- In a switch the accounts are marked anew before their processes are moved, hence both marks. -/
  added : ∀ pid p b, e.processes.get? pid = some p → e.bundles.get? p.uid = some b →
    b.pinned = false → ∀ id a, e.accounts.get? id = some a → ∀ current,
      FitsInt32 (p.level + { a with isCurrent := current }.offset)

theorem Sound.onScale (h : e.Sound) (hr : e.Regular) : e.OnScale := by
  intro pid p hp
  obtain ⟨-, b, hb⟩ := (h.housed p.uid).process pid p hp rfl
  refine ⟨b, hb, fun hpin => ⟨hr.pinned pid p b hp hb hpin, ?_⟩, hr.ordinary pid p b hp hb⟩
  rw [(h.priced p.uid).process pid p b hp rfl hb]
  unfold due
  rw [if_pos hpin]

theorem dueOffset_bounds (hshift : 0 ≤ e.settings.shift) (id : Int) :
    -e.settings.shift ≤ e.dueOffset id ∧ e.dueOffset id ≤ 0 := by
  unfold dueOffset
  rw [(Settings.roomy_of_nonneg hshift).offset_eq]
  split <;> omega

theorem fitsInt32_moved (hroomy : e.settings.Roomy) {level : Int} (hlevel : level ∈ Level.ordinary)
    (id : Int) : FitsInt32 (level + e.dueOffset id) := by
  unfold dueOffset
  split
  · have hhigh : Level.suspend + e.settings.offset ≤ Text.maxInt32 := by
      rw [hroomy.offset_eq]
      exact hroomy
    exact Level.fitsInt32_add hlevel (fits_wrapInt32 _).1 hhigh
  · exact Level.fitsInt32_add hlevel (by decide) (by decide)

/-- The level of `p` can be moved by what is due in its account, within 32 bits. -/
def Fits (e : Engine) (p : TrackedProcess) : Prop :=
  FitsInt32 (p.level + e.dueOffset (accountOf p.uid))

theorem Sound.spans_priority (h : e.Sound) (hr : e.Regular) (hshift : 0 ≤ e.settings.shift)
    (hp : e.processes.get? pid = some p) : Level.Spans e.settings.shift p.priority := by
  obtain ⟨-, b, hb⟩ := (h.housed p.uid).process pid p hp rfl
  rw [(h.priced p.uid).process pid p b hp rfl hb]
  unfold due
  cases hpin : b.pinned with
  | true => exact .inl rfl
  | false =>
    obtain ⟨hlow, hhigh⟩ := dueOffset_bounds hshift (accountOf p.uid)
    have hlevel := (hr.ordinary pid p b hp hb hpin).level
    exact Level.spans_moved hlevel (fitsInt32_moved (Settings.roomy_of_nonneg hshift) hlevel _) hlow
      hhigh

theorem Sound.ranged (h : e.Sound) (hr : e.Regular) (hshift : 0 ≤ e.settings.shift)
    (hmax : e.settings.shift ≤ Text.maxInt32) : e.Ranged where
  process _ _ hp := h.spans_priority hr hshift hp
  bundle uid b hb := by
    obtain ⟨pid, p, hp, -, hprio⟩ := ((h.priced uid).bundle b hb).attained
    rw [← hprio]
    exact h.spans_priority hr hshift hp
  negated id a ha := by
    obtain ⟨-, -, -, hequal⟩ := h.enrolled.record id a ha
    rw [hequal]
    exact fitsInt32_neg hshift hmax
  added pid p b hp hb hpin id a ha current := by
    obtain ⟨-, -, -, hequal⟩ := h.enrolled.record id a ha
    obtain ⟨hlow, hhigh⟩ := Level.bounds_of_mem_ordinary (hr.ordinary pid p b hp hb hpin).level
    have hzero : Level.foreground = 0 := rfl
    have hoffset : -a.shift ≤ { a with isCurrent := current }.offset ∧
        { a with isCurrent := current }.offset ≤ 0 :=
      Account.offset_bounds (show 0 ≤ a.shift by omega) (show a.shift ≤ Text.maxInt32 by omega)
    exact fitsInt32_of_bounds hmax (by omega) (by omega)

/-- Every engine is on the scale, and with an admissible shift its arithmetic stays in 32 bits. -/
theorem run_onScale (settings : Settings) (requests : List Request) :
    (run settings requests).OnScale ∧
      (0 ≤ settings.shift → settings.shift ≤ Text.maxInt32 → (run settings requests).Ranged) := by
  have hsound := run_sound settings requests
  have hregular := run_regular settings requests
  refine ⟨hsound.onScale hregular, fun hshift hmax => ?_⟩
  rw [← run_settings settings requests] at hshift hmax
  exact hsound.ranged hregular hshift hmax

end Engine

end MemoryArbiter
