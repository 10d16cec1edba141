import MemoryArbiter.Text.Integer

/-! # The priority scale

Bundles are ranked by an integer priority: a lower one is kept alive longer, a higher one is
killed first.  The named levels lie on the kernel's `oom_score_adj` range, so that a priority can
be written to the kernel as it is.  Uids are handed out to accounts in blocks of one size.

Priorities have 32 bits.  A sum that does not fit wraps around, without a notice.

A name in parentheses, here and in the other modules, is that of the function which a definition
follows.
-/

namespace MemoryArbiter

/-! ### Integers of 32 bits -/

def FitsInt32 (n : Int) : Prop := Text.minInt32 ≤ n ∧ n ≤ Text.maxInt32

instance (n : Int) : Decidable (FitsInt32 n) := inferInstanceAs (Decidable (_ ∧ _))

theorem fitsInt32_of_int32? {cs : List Char} {n : Int} (h : Text.int32? cs = some n) :
    FitsInt32 n := by
  have hcheck := (Option.filter_eq_some_iff.mp h).2
  simpa [FitsInt32] using hcheck

/-- What is left of `n` in 32 bits. -/
def wrapInt32 (n : Int) : Int := n.bmod 4294967296

theorem fits_wrapInt32 (n : Int) : FitsInt32 (wrapInt32 n) := by
  have hmin : -(2 ^ 32 / 2) ≤ wrapInt32 n := Int.le_bmod (by decide)
  have hmax : wrapInt32 n < (2 ^ 32 + 1) / 2 := Int.bmod_lt (by decide)
  unfold FitsInt32 Text.minInt32 Text.maxInt32
  omega

theorem wrapInt32_of_fits {n : Int} (h : FitsInt32 n) : wrapInt32 n = n := by
  obtain ⟨hmin, hmax⟩ := h
  unfold Text.minInt32 at hmin
  unfold Text.maxInt32 at hmax
  exact Int.bmod_eq_of_le (by omega) (by omega)

/-! ### The levels -/

namespace Level

/-- Pinned bundles: never killed and never moved. -/
def system : Int := -1000

def foreground : Int := 0

def visible : Int := 1

def suspendDelay : Int := 100

/-- A background task, a short event or a data ability is under way. -/
def perceived : Int := 200

def distDevice : Int := 260

def background : Int := 400

def frozen : Int := 600

def suspend : Int := 800

def empty : Int := 900

def unknown : Int := 1000

/-- Name of the first level that `p` does not exceed (`level_name`). -/
def name (p : Int) : String :=
  if p ≤ system then "system"
  else if p ≤ foreground then "foreground"
  else if p ≤ visible then "visible"
  else if p ≤ suspendDelay then "suspend_delay"
  else if p ≤ perceived then "perceived"
  else if p ≤ distDevice then "dist_device"
  else if p ≤ background then "background"
  else if p ≤ frozen then "frozen"
  else if p ≤ suspend then "suspend"
  else if p ≤ empty then "empty"
  else "unknown"

end Level

/-! ### The kernel's range -/

def oomScoreMin : Int := -1000

def oomScoreMax : Int := 1000

/-- The kernel score of a priority (`to_oom_score_adj`): the nearest value in the kernel's range. -/
def oomScore (p : Int) : Int := max oomScoreMin (min p oomScoreMax)

theorem oomScore_of_mem {p : Int} (h₁ : oomScoreMin ≤ p) (h₂ : p ≤ oomScoreMax) :
    oomScore p = p := by
  unfold oomScore
  rw [Int.min_eq_left h₂, Int.max_eq_right h₁]

theorem oomScore_mem (p : Int) : oomScoreMin ≤ oomScore p ∧ oomScore p ≤ oomScoreMax := by
  refine ⟨Int.le_max_left .., Int.max_le.mpr ⟨by decide, Int.min_le_right ..⟩⟩

/-! ### Accounts -/

def accountSpan : Int := 200000

/-- The account that owns `uid` (`derive_account_id`); the quotient is rounded toward zero. -/
def accountOf (uid : Int) : Int := uid.tdiv accountSpan

/-! ### Moving a level by an account's offset -/

/-- `level` moved by `offset` (`shifted`).  With `clamp`, a promotion stops at the foreground level,
unless the level was more important already. -/
def moved (level offset : Int) (clamp : Bool) : Int :=
  let sum := wrapInt32 (level + offset)
  if clamp && offset < 0 then max sum (min level Level.foreground) else sum

theorem moved_of_fits {level offset : Int} (h : FitsInt32 (level + offset)) (clamp : Bool) :
    moved level offset clamp =
      if clamp && offset < 0 then max (level + offset) (min level Level.foreground)
      else level + offset := by
  unfold moved
  rw [wrapInt32_of_fits h]

/-- The order is kept where no sum wraps around. -/
theorem moved_le_moved {l m offset : Int} (h : l ≤ m) (hl : FitsInt32 (l + offset))
    (hm : FitsInt32 (m + offset)) (clamp : Bool) :
    moved l offset clamp ≤ moved m offset clamp := by
  rw [moved_of_fits hl, moved_of_fits hm]
  split <;> omega

end MemoryArbiter
