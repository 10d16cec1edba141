import Mathlib.Algebra.GroupWithZero.Nat
import MemoryArbiter.Kernel.Simulated
import MemoryArbiter.Proofs.Killer.Recorder

/-! # The accounts of a pass

A kill that lands takes a process away, writes its pid down and gives its memory back, and nothing
else on the simulated kernel changes.  What a pass reports as freed is the memory of the processes
that it killed, and memory is neither made nor lost.
-/

namespace MemoryArbiter

/-! ### Sums over tables -/

section

variable {κ : Type} [Key κ] {k : κ} {n : Nat}

theorem Ascending.sum_eraseEntry {es : List (κ × Nat)} (h : Ascending es)
    (hk : lookupEntry k es = some n) :
    ((MemoryArbiter.eraseEntry k es).map Prod.snd).sum + n = (es.map Prod.snd).sum := by
  induction es with
  | nil => simp [lookupEntry] at hk
  | cons hd tl ih =>
    obtain ⟨hhd, htl⟩ := List.pairwise_cons.mp h
    by_cases heq : hd.1 = k
    · subst heq
      have hn : hd.2 = n := by simpa [lookupEntry] using hk
      have hrest : MemoryArbiter.eraseEntry hd.1 (hd :: tl) = tl := by
        rw [← eraseEntry_eq_self hhd]
        simp [MemoryArbiter.eraseEntry]
      rw [hrest, List.map_cons, List.sum_cons, hn, Nat.add_comm]
    · have hrest : MemoryArbiter.eraseEntry k (hd :: tl) = hd :: MemoryArbiter.eraseEntry k tl := by
        simp [MemoryArbiter.eraseEntry, heq]
      have hsum := ih htl (by simpa [lookupEntry, heq] using hk)
      rw [hrest, List.map_cons, List.sum_cons, List.map_cons, List.sum_cons]
      omega

theorem Table.sum_values_erase {t : Table κ Nat} (h : t.get? k = some n) :
    (t.erase k).values.sum + n = t.values.sum :=
  t.ascending.sum_eraseEntry h

end

/-! ### Losses -/

namespace SimulatedKernel

/-- The memory in KB that a process holds; none if it is not alive. -/
def residentKb (k : SimulatedKernel) (pid : Int) : Nat := (k.resident.get? pid).getD 0

def held (k : SimulatedKernel) (pids : List Int) : Nat := (pids.map k.residentKb).sum

/-- The memory in KB that the live processes hold together. -/
def inUse (k : SimulatedKernel) : Nat := k.resident.values.sum

/-- From `k` to `k'` the processes `died` were killed, and nothing else happened. -/
structure Loses (k k' : SimulatedKernel) (died : List Int) : Prop where
  live : ∀ pid ∈ died, k.isAlive pid = true
  distinct : died.Nodup
  resident : ∀ pid, k'.resident.get? pid = if pid ∈ died then none else k.resident.get? pid
  scores : ∀ pid, k'.scores.get? pid = if pid ∈ died then none else k.scores.get? pid
  killed : k'.killed = k.killed ++ died
  reclaim : k'.reclaim = k.reclaim
  buffer : k'.buffer = if k.reclaim then k.buffer.map (· + k.held died) else k.buffer
  inUse : k'.inUse + k.held died = k.inUse

variable {k k' k'' : SimulatedKernel} {died died' : List Int} {pid : Int}

theorem Loses.refl (k : SimulatedKernel) : k.Loses k [] where
  live := nofun
  distinct := List.nodup_nil
  resident _ := rfl
  scores _ := rfl
  killed := (List.append_nil _).symm
  reclaim := rfl
  buffer := by cases k.buffer <;> simp [held]
  inUse := rfl

theorem Loses.isAlive_eq (h : k.Loses k' died) (pid : Int) :
    k'.isAlive pid = (k.isAlive pid && !decide (pid ∈ died)) := by
  unfold isAlive Table.contains
  rw [h.resident]
  by_cases hmem : pid ∈ died <;> simp [hmem]

theorem Loses.not_mem (h : k.Loses k' died) (hlive : k'.isAlive pid = true) : pid ∉ died := by
  rw [h.isAlive_eq] at hlive
  simp only [Bool.and_eq_true, Bool.not_eq_true', decide_eq_false_iff_not] at hlive
  exact hlive.2

/-- Processes that are left hold what they held. -/
theorem Loses.held_eq (h : k.Loses k' died) (hlive : ∀ pid ∈ died', k'.isAlive pid = true) :
    k'.held died' = k.held died' := by
  unfold held
  congr 1
  refine List.map_congr_left fun pid hpid => ?_
  unfold residentKb
  rw [h.resident, if_neg (h.not_mem (hlive pid hpid))]

theorem held_append (k : SimulatedKernel) (pids pids' : List Int) :
    k.held (pids ++ pids') = k.held pids + k.held pids' := by
  simp [held]

theorem Loses.trans (h : k.Loses k' died) (h' : k'.Loses k'' died') :
    k.Loses k'' (died ++ died') := by
  have hheld := h.held_eq h'.live
  have hgone : ∀ pid, pid ∈ died ++ died' ↔ pid ∈ died' ∨ pid ∈ died := fun pid => by
    rw [List.mem_append, or_comm]
  refine ⟨?_, ?_, fun pid => ?_, fun pid => ?_, ?_, h'.reclaim.trans h.reclaim, ?_, ?_⟩
  · intro pid hpid
    rcases List.mem_append.mp hpid with hpid | hpid
    · exact h.live pid hpid
    · have hlive := h'.live pid hpid
      rw [h.isAlive_eq, Bool.and_eq_true] at hlive
      exact hlive.1
  · refine List.nodup_append.mpr ⟨h.distinct, h'.distinct, fun pid hpid q hq heq => ?_⟩
    exact h.not_mem (h'.live q hq) (heq ▸ hpid)
  · rw [h'.resident, h.resident]
    by_cases hfirst : pid ∈ died <;> by_cases hsecond : pid ∈ died' <;> simp [hfirst, hsecond]
  · rw [h'.scores, h.scores]
    by_cases hfirst : pid ∈ died <;> by_cases hsecond : pid ∈ died' <;> simp [hfirst, hsecond]
  · rw [h'.killed, h.killed, List.append_assoc]
  · rw [h'.buffer, h.buffer, h.reclaim, hheld, held_append]
    cases k.reclaim with
    | false => rfl
    | true => cases k.buffer <;> simp [Nat.add_assoc]
  · have hfirst := h.inUse
    have hsecond := h'.inUse
    rw [held_append]
    omega

/-! ### Kills -/

/-- A kill that does not land changes nothing; one that does answers with the memory of the
process. -/
theorem kill_cases (k : SimulatedKernel) (pid : Int) :
    (∃ error, k.kill pid = (.error error, k)) ∨
      ∃ rssKb, k.resident.get? pid = some rssKb ∧ (k.kill pid).1 = .ok rssKb ∧
        k.Loses (k.kill pid).2 [pid] := by
  unfold kill
  cases hres : k.resident.get? pid with
  | none => exact .inl ⟨_, rfl⟩
  | some rssKb =>
    by_cases hdenied : pid ∈ k.denied
    · exact .inl ⟨_, if_pos hdenied⟩
    · simp only [if_neg hdenied]
      have hheld : k.held [pid] = rssKb := by simp [held, residentKb, hres]
      have hdistinct : [pid].Nodup := List.nodup_cons.mpr ⟨List.not_mem_nil, List.nodup_nil⟩
      refine .inr ⟨rssKb, rfl, rfl, ?_, hdistinct, fun q => ?_, fun q => ?_, rfl, rfl, ?_, ?_⟩
      · intro q hq
        rw [List.mem_singleton.mp hq]
        exact Table.contains_iff.mpr ⟨rssKb, hres⟩
      · rw [Table.get?_erase]
        simp only [List.mem_singleton, eq_comm]
      · rw [Table.get?_erase]
        simp only [List.mem_singleton, eq_comm]
      · rw [hheld]
      · rw [hheld]
        exact Table.sum_values_erase hres

/-- What one kill adds to the tally is what the process held. -/
theorem sendKill_loses (s : KillTally × SimulatedKernel) (pid : Int) : ∃ died,
    s.2.Loses (sendKill s pid).2 died ∧ died.Sublist [pid] ∧
      (sendKill s pid).1.freedKb = s.1.freedKb + s.2.held died ∧
      s.1.gone + died.length ≤ (sendKill s pid).1.gone := by
  have hanswer : sendKill s pid = (s.1.count (s.2.kill pid).1, (s.2.kill pid).2) := rfl
  rcases s.2.kill_cases pid with ⟨error, hkill⟩ | ⟨rssKb, hres, hok, hloses⟩
  · refine ⟨[], ?_, List.nil_sublist _, ?_, ?_⟩
    · rw [hanswer, hkill]
      exact Loses.refl s.2
    · rw [hanswer, hkill]
      cases error <;> rfl
    · rw [hanswer, hkill]
      cases error <;> simp [KillTally.count]
  · refine ⟨[pid], hloses, List.Sublist.refl _, ?_, ?_⟩
    · rw [hanswer, hok]
      simp [KillTally.count, held, residentKb, hres]
    · rw [hanswer, hok]
      exact Nat.le_refl _

theorem foldl_sendKill_loses (pids : List Int) (s : KillTally × SimulatedKernel) : ∃ died,
    s.2.Loses (pids.foldl sendKill s).2 died ∧ died.Sublist pids ∧
      (pids.foldl sendKill s).1.freedKb = s.1.freedKb + s.2.held died ∧
      s.1.gone + died.length ≤ (pids.foldl sendKill s).1.gone := by
  induction pids generalizing s with
  | nil => exact ⟨[], Loses.refl s.2, List.Sublist.refl _, rfl, Nat.le_refl _⟩
  | cons pid pids ih =>
    obtain ⟨first, hfirst, hsub, hfreed, hgone⟩ := sendKill_loses s pid
    obtain ⟨died, hdied, hsub', hfreed', hgone'⟩ := ih (sendKill s pid)
    refine ⟨first ++ died, hfirst.trans hdied, hsub.append hsub', ?_, ?_⟩
    · rw [List.foldl_cons, hfreed', hfreed, hfirst.held_eq hdied.live, held_append, Nat.add_assoc]
    · rw [List.foldl_cons, List.length_append]
      omega

end SimulatedKernel

section

variable {σ : Type} [Roster σ] {killer : Killer} {rows : List BundleRow} {tried : List Int}
  {h h' : Hunt SimulatedKernel σ} {turns : List Turn} {ending : Ending}

/-! ### Turns -/

theorem Hunt.attempt_loses (h : Hunt SimulatedKernel σ) (row : BundleRow) : ∃ died,
    h.kernel.Loses (h.attempt row).kernel died ∧ died.Sublist row.pids ∧
      (h.attempt row).report.freedKb = h.report.freedKb + h.kernel.held died := by
  obtain ⟨died, hloses, hsub, hfreed, hgone⟩ :=
    SimulatedKernel.foldl_sendKill_loses row.pids ({}, h.kernel)
  rw [← killPids_eq_foldl] at hloses hfreed hgone
  refine ⟨died, by rw [h.attempt_kernel]; exact hloses, hsub, ?_⟩
  rcases h.attempt_cases row with ⟨hzero, hrow⟩ | ⟨-, hrow⟩
  · -- a bundle of which no kill landed has lost nothing
    have hnone : died = [] := by
      rw [hzero] at hgone
      exact List.eq_nil_of_length_eq_zero (by omega)
    rw [hrow, hnone]
    rfl
  · rw [hrow]
    show h.report.freedKb + (killPids row.pids h.kernel).1.freedKb = _
    rw [hfreed]
    exact congrArg _ (Nat.zero_add _)

theorem Course.loses (c : Course killer rows tried h turns ending h') : ∃ died,
    h.kernel.Loses h'.kernel died ∧ died.Sublist ((turns.map Turn.row).flatMap BundleRow.pids) ∧
      h'.report.freedKb = h.report.freedKb + h.kernel.held died := by
  induction c with
  | turn room read tier choice rest ih =>
    rename_i h _ _ _ row _ _
    obtain ⟨first, hfirst, hsub, hfreed⟩ := h.reread.attempt_loses row
    obtain ⟨died, hdied, hsub', hfreed'⟩ := ih
    refine ⟨first ++ died, hfirst.trans hdied, hsub.append hsub', ?_⟩
    rw [hfreed', hfreed, hfirst.held_eq hdied.live, SimulatedKernel.held_append, Nat.add_assoc]
    rfl
  | _ => exact ⟨[], SimulatedKernel.Loses.refl _, List.Sublist.refl _, rfl⟩

/-- For a hunt only processes of bundles that were tried die, in the order of the turns. -/
theorem Course.died (c : Course killer rows tried h turns ending h') : ∃ died,
    died.Sublist (turns.flatMap fun t => t.row.pids) ∧
      h'.kernel.killed = h.kernel.killed ++ died := by
  obtain ⟨died, hloses, hsub, -⟩ := c.loses
  rw [List.flatMap_map] at hsub
  exact ⟨died, hsub, hloses.killed⟩

end

/-! ### The report -/

/-- The total of a report is the sum of its figures. -/
def KillReport.Summed (r : KillReport) : Prop := r.freedKb = (r.killed.map Kill.freedKb).sum

section

variable {κ σ : Type} [Kernel κ] [Roster σ] {killer : Killer} {rows : List BundleRow}
  {tried : List Int} {h h' : Hunt κ σ} {turns : List Turn} {ending : Ending}

theorem Hunt.attempt_summed (hsum : h.report.Summed) (row : BundleRow) :
    (h.attempt row).report.Summed := by
  rcases h.attempt_cases row with ⟨-, hrow⟩ | ⟨-, hrow⟩
  · rw [hrow]
    exact hsum
  · rw [hrow]
    unfold KillReport.Summed KillReport.add at *
    simp [hsum]

theorem Course.summed (c : Course killer rows tried h turns ending h') (hsum : h.report.Summed) :
    h'.report.Summed := by
  induction c with
  | turn room read tier choice rest ih =>
    rename_i h _ _ _ row _ _
    exact ih (h.reread.attempt_summed hsum row)
  | _ => exact hsum

/-- The rows that a pass attempts: those of the turns of its course, and none without a list. -/
def Killer.Attempts (killer : Killer) (kernel : κ) (roster : σ) (attempted : List BundleRow) :
    Prop :=
  match Roster.rows roster with
  | .error _ => attempted = []
  | .ok rows => ∃ turns ending,
      Course killer rows [] { kernel, roster } turns ending (killer.pass kernel roster).1 ∧
        turns.map Turn.row = attempted

end

/-! ### Every pass -/

/-- The accounts of a pass from `kernel` that has attempted the rows `attempted`. -/
structure Accounts {σ : Type} (kernel : SimulatedKernel) (attempted : List BundleRow)
    (h : Hunt SimulatedKernel σ) : Prop where
  summed : h.report.freedKb = (h.report.killed.map Kill.freedKb).sum
  /-- What was freed is what those have held that are alive no more; each of them was written down
  once. -/
  dead : ∃ died : List Int, died.Nodup ∧
    (∀ pid, pid ∈ died ↔ kernel.isAlive pid = true ∧ h.kernel.isAlive pid = false) ∧
    h.kernel.killed = kernel.killed ++ died ∧ h.report.freedKb = kernel.held died
  conserved : kernel.reclaim = true → ∀ kb, kernel.buffer = some kb →
    ∃ kb', h.kernel.buffer = some kb' ∧ kb' + h.kernel.inUse = kb + kernel.inUse
  kept : kernel.reclaim = false → h.kernel.buffer = kernel.buffer
  spared : ∀ pid, kernel.isAlive pid = true → (∀ row ∈ attempted, pid ∉ row.pids) →
    h.kernel.isAlive pid = true ∧ h.kernel.scores.get? pid = kernel.scores.get? pid

theorem SimulatedKernel.Loses.accounts {σ : Type} {kernel : SimulatedKernel}
    {attempted : List BundleRow} {died : List Int} {h : Hunt SimulatedKernel σ}
    (hloses : kernel.Loses h.kernel died) (hsub : died ⊆ attempted.flatMap BundleRow.pids)
    (hfreed : h.report.freedKb = kernel.held died) (hsum : h.report.Summed) :
    Accounts kernel attempted h where
  summed := hsum
  dead := by
    refine ⟨died, hloses.distinct, fun pid => ?_, hloses.killed, hfreed⟩
    rw [hloses.isAlive_eq]
    constructor
    · intro hpid
      simp [hloses.live pid hpid, hpid]
    · rintro ⟨hlive, hgone⟩
      simpa [hlive] using hgone
  conserved hreclaim kb hkb := by
    refine ⟨kb + kernel.held died, ?_, ?_⟩
    · rw [hloses.buffer, hreclaim, hkb]
      rfl
    · have hinUse := hloses.inUse
      omega
  kept hreclaim := by
    rw [hloses.buffer, hreclaim]
    rfl
  spared pid hlive hout := by
    have hpid : pid ∉ died := fun hmem => by
      obtain ⟨row, hrow, hmem⟩ := List.mem_flatMap.mp (hsub hmem)
      exact hout row hrow hmem
    rw [hloses.isAlive_eq, hloses.scores, if_neg hpid]
    simp [hlive, hpid]

/-- Every pass keeps its accounts, and publishes its kills with the figures of the report, and then
the totals. -/
theorem Killer.pass_accounts {σ : Type} [Roster σ] (killer : Killer) (kernel : SimulatedKernel)
    (roster : σ) : ∃ attempted, killer.Attempts kernel roster attempted ∧
      Accounts kernel attempted (killer.pass kernel roster).1 ∧
      (killer.pass kernel roster).2 =
        match Roster.rows roster with
        | .error _ => []
        | .ok _ =>
          (killer.pass kernel roster).1.report.killed.map
              (fun k => .bundleKilled k.uid k.name k.priority k.freedKb) ++
            [.passFinished (killer.pass kernel roster).1.report.killed.length
              (killer.pass kernel roster).1.report.freedKb] := by
  unfold Killer.Attempts
  cases hrows : Roster.rows roster with
  | error closed =>
    rw [killer.pass_of_closed kernel hrows]
    have hsame := SimulatedKernel.Loses.refl kernel
    exact ⟨[], rfl, hsame.accounts (List.nil_subset _) rfl rfl, rfl⟩
  | ok rows =>
    obtain ⟨turns, ending, c⟩ := killer.pass_course kernel hrows
    obtain ⟨died, hloses, hsub, hfreed⟩ := c.loses
    refine ⟨turns.map Turn.row, ⟨turns, ending, c, rfl⟩,
      hloses.accounts hsub.subset (hfreed.trans (Nat.zero_add _)) (c.summed rfl), ?_⟩
    rw [killer.pass_of_rows kernel hrows]
    rfl

end MemoryArbiter
