import MemoryArbiter.Kernel.Basic
import MemoryArbiter.Killer.Roster
import MemoryArbiter.Killer.Tier
import MemoryArbiter.Notice

/-! # The pressure pass

A pass works on one list of rows.  Time and again it reads the free memory, looks up the lowest
priority that may be killed, and kills the least important bundle at or above it.  It ends when
memory is healthy again, the cap is reached, no bundle is left, or memory cannot be read.

A bundle is tried once in a pass.  If every kill of it is refused, it is neither marked nor counted,
and a later pass tries it again.
-/

namespace MemoryArbiter

structure Kill where
  uid : Int
  name : String
  priority : Int
  freedKb : Nat
  deriving DecidableEq, Repr, Inhabited

def Kill.notice (k : Kill) : Notice := .bundleKilled k.uid k.name k.priority k.freedKb

structure KillReport where
  killed : List Kill := []
  freedKb : Nat := 0
  deriving DecidableEq, Repr, Inhabited

def KillReport.notice (r : KillReport) : Notice := .passFinished r.killed.length r.freedKb

def KillReport.add (r : KillReport) (k : Kill) : KillReport :=
  ⟨r.killed ++ [k], r.freedKb + k.freedKb⟩

structure Killer where
  tiers : TierTable
  /-- The most bundles that one pass kills; at least one is. -/
  maxKills : Nat := 3
  deriving DecidableEq, Repr, Inhabited

def Killer.cap (killer : Killer) : Nat := max killer.maxKills 1

/-! ### Killing one bundle (`kill_bundle`) -/

/-- What became of the kills sent to a bundle. -/
structure KillTally where
  freedKb : Nat := 0
  /-- How many pids are gone, whether killed now or gone before. -/
  gone : Nat := 0
  deriving DecidableEq, Repr, Inhabited

def KillTally.count (t : KillTally) : Except KernelError Nat → KillTally
  | .ok kb => ⟨t.freedKb + kb, t.gone + 1⟩
  | .error (.noSuchProcess _) => { t with gone := t.gone + 1 }
  | .error _ => t

section

variable {κ σ : Type} [Kernel κ] [Roster σ]

def killPids (pids : List Int) (kernel : κ) : KillTally × κ :=
  pids.foldl
    (fun s pid =>
      let answer := Kernel.kill s.2 pid
      (s.1.count answer.1, answer.2))
    ({}, kernel)

/-- A pass under way: what it acts on, and what it has published and done. -/
structure Hunt (κ σ : Type) where
  kernel : κ
  roster : σ
  notices : List Notice := []
  report : KillReport := {}

def Hunt.attempt (h : Hunt κ σ) (row : BundleRow) : Hunt κ σ :=
  let outcome := killPids row.pids h.kernel
  let h := { h with kernel := outcome.2 }
  if outcome.1.gone = 0 then h
  else
    let kill : Kill := ⟨row.uid, row.name, row.priority, outcome.1.freedKb⟩
    { h with
      roster := (Roster.mark h.roster row.uid).2
      notices := h.notices ++ [kill.notice]
      report := h.report.add kill }

/-! ### The choice of a victim -/

/-- A bundle that may be tried: not killed before, not pinned and not yet tried. -/
def BundleRow.eligible (row : BundleRow) (tried : List Int) : Bool :=
  row.state != .waitingForKill && !row.pinned && !tried.contains row.uid

/-- The least important bundle that may be tried (`select_victim`), among those at the end of `rows`
whose priority is at least `floor`. -/
def victim? (rows : List BundleRow) (floor : Int) (tried : List Int) : Option BundleRow :=
  (rows.reverse.takeWhile fun row => floor ≤ row.priority).find? fun row => row.eligible tried

def untried (rows : List BundleRow) (tried : List Int) : List BundleRow :=
  rows.filter fun row => !tried.contains row.uid

theorem mem_of_victim? {rows : List BundleRow} {floor : Int} {tried : List Int} {row : BundleRow}
    (h : victim? rows floor tried = some row) :
    row ∈ rows ∧ floor ≤ row.priority ∧ row.eligible tried = true := by
  unfold victim? at h
  have he := List.find?_some h
  have hm := List.mem_of_find?_eq_some h
  refine ⟨?_, ?_, he⟩
  · exact List.mem_reverse.mp ((List.takeWhile_sublist _).mem hm)
  · have := List.all_eq_true.mp (List.all_takeWhile (l := rows.reverse)
      (p := fun row => decide (floor ≤ row.priority))) row hm
    simpa using this

theorem untried_lt {rows : List BundleRow} {floor : Int} {tried : List Int} {row : BundleRow}
    (h : victim? rows floor tried = some row) :
    (untried rows (row.uid :: tried)).length < (untried rows tried).length := by
  obtain ⟨hm, -, he⟩ := mem_of_victim? h
  have hu : untried rows (row.uid :: tried)
      = (untried rows tried).filter fun r => r.uid ≠ row.uid := by
    simp [untried, List.filter_filter, Bool.not_or]
  rw [hu]
  apply List.length_filter_lt_length_iff_exists.mpr
  refine ⟨row, ?_, by simp⟩
  simp only [BundleRow.eligible, Bool.and_eq_true] at he
  exact List.mem_filter.mpr ⟨hm, he.2⟩

/-! ### The loop (`pressure_pass`) -/

/-- Go on with a pass in which the uids `tried` have been tried. -/
def hunt (killer : Killer) (rows : List BundleRow) (tried : List Int) (h : Hunt κ σ) : Hunt κ σ :=
  if killer.cap ≤ h.report.killed.length then h
  else
    let buffer := Kernel.readBuffer h.kernel
    let h := { h with kernel := buffer.2 }
    match buffer.1 with
    | .error _ => h
    | .ok kb =>
      match killer.tiers.minPriority? kb with
      | none => h
      | some floor =>
        match _hv : victim? rows floor tried with
        | none => h
        | some row => hunt killer rows (row.uid :: tried) (h.attempt row)
termination_by (untried rows tried).length
decreasing_by exact untried_lt _hv

/-- Run one pass: what it leaves behind, and what it publishes.  Without rows there is no pass. -/
def Killer.pass (killer : Killer) (kernel : κ) (roster : σ) : Hunt κ σ × List Notice :=
  match Roster.rows roster with
  | .error _ => ({ kernel, roster }, [])
  | .ok rows =>
    let h := hunt killer rows [] { kernel, roster }
    (h, h.notices ++ [h.report.notice])

end

end MemoryArbiter
