import MemoryArbiter.Kernel.Simulated
import MemoryArbiter.Proofs.Killer.Sweep

/-! # What is left of a bundle that was tried

The simulated kernel refuses to kill the processes that it is told to spare.  A pass reports a bundle
as soon as one of its processes is gone, and so a bundle can be reported of which spared processes
are left.
-/

namespace MemoryArbiter

namespace SimulatedKernel

/-- A live process that is not to be killed. -/
def spares (k : SimulatedKernel) (pid : Int) : Bool := k.isAlive pid && decide (pid ∈ k.denied)

/-- From `k` to `k'` kills were sent to `pids`, and nothing else has happened to the processes. -/
structure Culled (k k' : SimulatedKernel) (pids : List Int) : Prop where
  alive_iff : ∀ pid, k'.isAlive pid = true ↔ k.isAlive pid = true ∧ (pid ∈ pids → pid ∈ k.denied)
  denied : k'.denied = k.denied

variable {k k' k'' : SimulatedKernel} {pids pids' : List Int} {pid : Int}

theorem Culled.refl (k : SimulatedKernel) : k.Culled k [] :=
  ⟨fun _ => ⟨fun halive => ⟨halive, (nomatch ·)⟩, And.left⟩, rfl⟩

theorem Culled.trans (h : k.Culled k' pids) (h' : k'.Culled k'' pids') :
    k.Culled k'' (pids ++ pids') := by
  refine ⟨fun pid => ?_, h'.denied.trans h.denied⟩
  rw [h'.alive_iff, h.alive_iff, h.denied, List.mem_append]
  constructor
  · rintro ⟨⟨halive, hfirst⟩, hsecond⟩
    exact ⟨halive, fun hmem => hmem.elim hfirst hsecond⟩
  · rintro ⟨halive, hboth⟩
    exact ⟨⟨halive, fun hmem => hboth (.inl hmem)⟩, fun hmem => hboth (.inr hmem)⟩

theorem Culled.spares_eq (h : k.Culled k' pids) (pid : Int) : k'.spares pid = k.spares pid := by
  rw [Bool.eq_iff_iff]
  simp only [spares, Bool.and_eq_true, decide_eq_true_eq, h.denied, h.alive_iff]
  exact ⟨fun ⟨⟨halive, _⟩, hdenied⟩ => ⟨halive, hdenied⟩,
    fun ⟨halive, hdenied⟩ => ⟨⟨halive, fun _ => hdenied⟩, hdenied⟩⟩

theorem Culled.isAlive_eq (h : k.Culled k' pids) (hpid : pid ∈ pids) :
    k'.isAlive pid = k.spares pid := by
  rw [Bool.eq_iff_iff]
  simp [spares, h.alive_iff, hpid]

/-! ### Kills -/

theorem isAlive_iff {k : SimulatedKernel} :
    k.isAlive pid = true ↔ ∃ kb, k.resident.get? pid = some kb :=
  Table.contains_iff

theorem culled_kill (k : SimulatedKernel) (pid : Int) : k.Culled (k.kill pid).2 [pid] := by
  have hsame : (k.isAlive pid = true → pid ∈ k.denied) → k.Culled k [pid] := by
    refine fun hspared => ⟨fun q => ⟨fun halive => ⟨halive, fun hq => ?_⟩, And.left⟩, rfl⟩
    obtain rfl := List.mem_singleton.mp hq
    exact hspared halive
  unfold kill
  cases hres : k.resident.get? pid with
  | none =>
    refine hsame fun halive => ?_
    obtain ⟨kb, hkb⟩ := isAlive_iff.mp halive
    exact nomatch hkb.symm.trans hres
  | some kb =>
    by_cases hdenied : pid ∈ k.denied
    · simp only [if_pos hdenied]
      exact hsame fun _ => hdenied
    · simp only [if_neg hdenied]
      refine ⟨fun q => ?_, rfl⟩
      rw [isAlive_iff, isAlive_iff, Table.get?_erase, List.mem_singleton]
      by_cases hq : pid = q
      · subst hq
        simp [hdenied]
      · simp [hq, Ne.symm hq]

theorem count_kill (k : SimulatedKernel) (pid : Int) (t : KillTally) :
    (t.count (k.kill pid).1).gone = t.gone + if k.spares pid then 0 else 1 := by
  unfold kill spares isAlive Table.contains
  cases hres : k.resident.get? pid with
  | none => rfl
  | some kb => by_cases hdenied : pid ∈ k.denied <;> simp [hdenied, KillTally.count]

theorem foldl_kill (pids : List Int) (s : KillTally × SimulatedKernel) :
    let s' := pids.foldl (fun s pid =>
      (s.1.count (Kernel.kill s.2 pid).1, (Kernel.kill s.2 pid).2)) s
    s.2.Culled s'.2 pids ∧ s'.1.gone = s.1.gone + pids.countP fun pid => !s.2.spares pid := by
  induction pids generalizing s with
  | nil => exact ⟨Culled.refl s.2, rfl⟩
  | cons pid pids ih =>
    obtain ⟨hculled, hgone⟩ := ih (s.1.count (s.2.kill pid).1, (s.2.kill pid).2)
    have hfirst := s.2.culled_kill pid
    refine ⟨hfirst.trans hculled, ?_⟩
    simp only [hfirst.spares_eq, s.2.count_kill] at hgone
    refine hgone.trans ?_
    rw [List.countP_cons]
    cases s.2.spares pid with
    | true => simp
    | false =>
      simp only [Bool.false_eq_true, if_false, Bool.not_false, if_true]
      omega

end SimulatedKernel

theorem killPids_simulated (pids : List Int) (k : SimulatedKernel) :
    k.Culled (killPids pids k).2 pids ∧
      ((killPids pids k).1.gone = 0 ↔ ∀ pid ∈ pids, k.spares pid = true) := by
  obtain ⟨hculled, hgone⟩ := SimulatedKernel.foldl_kill pids ({}, k)
  refine ⟨hculled, ?_⟩
  have hgone' : (killPids pids k).1.gone = 0 + pids.countP fun pid => !k.spares pid := hgone
  rw [hgone', Nat.zero_add, List.countP_eq_zero]
  simp

section

variable {σ : Type} [Roster σ] {killer : Killer} {rows : List BundleRow} {tried : List Int}
  {h h' : Hunt SimulatedKernel σ} {turns : List Turn} {ending : Ending}

def BundleRow.spared (row : BundleRow) (k : SimulatedKernel) : Bool := row.pids.all k.spares

theorem Hunt.attempt_simulated (h : Hunt SimulatedKernel σ) (row : BundleRow) :
    h.kernel.Culled (h.attempt row).kernel row.pids ∧
      (h.attempt row).report.killed.map Kill.uid =
        h.report.killed.map Kill.uid ++ if row.spared h.kernel then [] else [row.uid] := by
  obtain ⟨hculled, hgone⟩ := killPids_simulated row.pids h.kernel
  have hspared : row.spared h.kernel = true ↔ (killPids row.pids h.kernel).1.gone = 0 := by
    rw [hgone]
    exact List.all_eq_true
  refine ⟨by rw [Hunt.attempt_kernel]; exact hculled, ?_⟩
  rcases h.attempt_cases row with ⟨hzero, hrow⟩ | ⟨hsome, hrow⟩
  · rw [hrow, if_pos (hspared.mpr hzero), List.append_nil]
  · rw [hrow, if_neg fun hall => hsome (hspared.mp hall)]
    exact List.map_append

theorem Course.simulated (c : Course killer rows tried h turns ending h') :
    h.kernel.Culled h'.kernel ((turns.map Turn.row).flatMap BundleRow.pids) ∧
      h'.report.killed.map Kill.uid = h.report.killed.map Kill.uid ++
        ((turns.map Turn.row).filter fun row => !row.spared h.kernel).map BundleRow.uid := by
  induction c with
  | turn room read tier choice rest ih =>
    rename_i h _ _ _ row _ _
    obtain ⟨hfirst, huids⟩ := h.attempt_simulated row
    obtain ⟨hculled, hkilled⟩ := ih
    -- the later turns see the same processes spared as the first one
    have hsame : ∀ r : BundleRow, r.spared (h.attempt row).kernel = r.spared h.kernel := fun r =>
      congrArg r.pids.all (funext hfirst.spares_eq)
    refine ⟨hfirst.trans hculled, hkilled.trans ?_⟩
    show (h.attempt row).report.killed.map Kill.uid ++ List.map BundleRow.uid
      (List.filter (fun r => !r.spared (h.attempt row).kernel) _) = _
    rw [huids, List.append_assoc, List.map_cons, List.filter_cons]
    simp only [hsame]
    cases row.spared h.kernel <;> rfl
  | _ => exact ⟨SimulatedKernel.Culled.refl _, (List.append_nil _).symm⟩

/-! ### Every pass -/

/-- What is left after a pass from `kernel` and `roster` that has tried the rows `attempted`. -/
structure Remains (kernel : SimulatedKernel) (roster : σ) (attempted : List BundleRow)
    (h : Hunt SimulatedKernel σ) (published : List Notice) : Prop where
  alive_iff : ∀ pid, h.kernel.isAlive pid = true ↔ kernel.isAlive pid = true ∧
    ((∃ row ∈ attempted, pid ∈ row.pids) → pid ∈ kernel.denied)
  reported_iff : ∀ row ∈ attempted, row.uid ∈ h.report.killed.map Kill.uid ↔
    ∃ pid ∈ row.pids, h.kernel.isAlive pid = false
  attempted : ∀ uid ∈ h.report.killed.map Kill.uid, ∃ row ∈ attempted, row.uid = uid
  marked : h.roster = Roster.markAll roster (h.report.killed.map Kill.uid)
  published : published = h.report.killed.map Kill.notice ++ [h.report.notice]

theorem Course.remains {kernel : SimulatedKernel} {roster : σ}
    (c : Course killer rows [] { kernel, roster } turns ending h') :
    Remains kernel roster (turns.map Turn.row) h'
      (h'.report.killed.map Kill.notice ++ [h'.report.notice]) := by
  obtain ⟨hculled, hkilled⟩ := c.simulated
  have hspared : ∀ row ∈ turns.map Turn.row,
      row.spared kernel = false ↔ ∃ pid ∈ row.pids, h'.kernel.isAlive pid = false := by
    intro row hrow
    unfold BundleRow.spared
    rw [List.all_eq_false]
    refine exists_congr fun pid => and_congr_right fun hpid => ?_
    rw [hculled.isAlive_eq (List.mem_flatMap.mpr ⟨row, hrow, hpid⟩), Bool.not_eq_true]
  refine ⟨fun pid => ?_, fun row hrow => ?_, fun uid hu => ?_, c.roster_eq rfl, rfl⟩
  · rw [hculled.alive_iff, List.mem_flatMap]
  · rw [hkilled, ← hspared row hrow]
    -- a bundle is tried once, so that its uid tells its row
    have hdistinct : ((turns.map Turn.row).map BundleRow.uid).Nodup := by
      rw [List.map_map]
      exact c.uids_nodup.1
    constructor
    · intro hu
      obtain ⟨r, hr, huid⟩ := List.mem_map.mp hu
      obtain ⟨hr, hreached⟩ := List.mem_filter.mp hr
      rw [← eq_of_uid_eq hdistinct hr hrow huid]
      simpa using hreached
    · intro hreached
      refine List.mem_map_of_mem (List.mem_filter.mpr ⟨hrow, ?_⟩)
      simpa using hreached
  · obtain ⟨t, ht, huid⟩ := c.exists_turn rfl hu
    exact ⟨t.row, List.mem_map_of_mem ht, huid⟩

/-- In every pass a bundle that was tried is reported and marked if and only if one of its processes
is gone; all processes are gone that are not spared. -/
theorem Killer.pass_remains (killer : Killer) (kernel : SimulatedKernel) (roster : σ)
    (rows : List BundleRow) (hrows : Roster.rows roster = .ok rows) : ∃ turns ending,
      Course killer rows [] { kernel, roster } turns ending (killer.pass kernel roster).1 ∧
        Remains kernel roster (turns.map Turn.row) (killer.pass kernel roster).1
          (killer.pass kernel roster).2 := by
  obtain ⟨turns, ending, c⟩ := killer.pass_course kernel hrows
  refine ⟨turns, ending, c, ?_⟩
  have hremains := c.remains
  rw [killer.pass_of_rows kernel hrows] at hremains ⊢
  exact hremains

end

/-! ### A mixed outcome -/

def halfSparedRow : BundleRow := ⟨1, "mail", 400, 0, .normal, false, [11, 12]⟩

/-- The kernel spares one of the two processes. -/
def halfSparing : SimulatedKernel :=
  (((SimulatedKernel.new 90000).spawn 11 500).spawn 12 800).deny 12

def halfSparedRoster : FixedRoster := { rows := some [halfSparedRow] }

theorem pass_halfSparing (killer : Killer) : (killer.pass halfSparing halfSparedRoster).1 =
    (killer.sweep [halfSparedRow] { kernel := halfSparing, roster := halfSparedRoster }).1 :=
  killer.pass_eq_sweep halfSparing rfl (List.pairwise_singleton ..) (by decide) fun _ => rfl

/-- Of a bundle that is reported a spared process is left. -/
theorem remains_halfSparing : ∃ (killer : Killer) (kernel : SimulatedKernel)
    (roster : FixedRoster) (rows attempted : List BundleRow), Roster.rows roster = .ok rows ∧
      Remains kernel roster attempted (killer.pass kernel roster).1
        (killer.pass kernel roster).2 ∧
      (killer.pass kernel roster).1.report.killed.map Kill.uid = [1] ∧
      (killer.pass kernel roster).1.kernel.isAlive 11 = false ∧
      (killer.pass kernel roster).1.kernel.isAlive 12 = true := by
  let killer : Killer := { tiers := TierTable.default }
  have hrows : Roster.rows halfSparedRoster = .ok [halfSparedRow] := rfl
  obtain ⟨turns, ending, -, hremains⟩ :=
    Killer.pass_remains killer halfSparing halfSparedRoster [halfSparedRow] hrows
  refine ⟨killer, halfSparing, halfSparedRoster, [halfSparedRow], turns.map Turn.row, hrows,
    hremains, ?_⟩
  rw [pass_halfSparing]
  decide

theorem alive_after_report :
    ¬ ∀ (killer : Killer) (kernel : SimulatedKernel) (roster : FixedRoster)
      (rows : List BundleRow), Roster.rows roster = .ok rows → ∀ row ∈ rows,
        row.uid ∈ (killer.pass kernel roster).1.report.killed.map Kill.uid →
        ∀ pid ∈ row.pids, (killer.pass kernel roster).1.kernel.isAlive pid = false := by
  intro h
  have hgone := h { tiers := TierTable.default } halfSparing halfSparedRoster
    [halfSparedRow] rfl halfSparedRow (List.mem_singleton_self _)
  rw [pass_halfSparing] at hgone
  exact absurd (hgone (by decide) 12 (by decide)) (by decide)

end MemoryArbiter
