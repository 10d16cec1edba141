import MemoryArbiter.Killer.Pass

/-! # The course of a hunt

A hunt takes turns.  In each it reads the free memory, looks up the floor and tries one bundle; then
something brings it to an end.  `Course` relates a hunt to its turns and its ending, so that what
every turn keeps is shown by induction on the turns.
-/

namespace MemoryArbiter

/-- A bundle was tried at this reading of the free memory. -/
structure Turn where
  bufferKb : Nat
  /-- The lowest priority that may be killed at the reading. -/
  floor : Int
  row : BundleRow

/-- Why a hunt came to its end. -/
inductive Ending
  | capReached
  | unreadable (error : KernelError)
  | healthy (bufferKb : Nat)
  | noVictim (bufferKb : Nat) (floor : Int)

section

variable {κ σ : Type} [Kernel κ]

/-- The hunt after the free memory was read. -/
def Hunt.reread (h : Hunt κ σ) : Hunt κ σ := { h with kernel := (Kernel.readBuffer h.kernel).2 }

theorem Hunt.reread_eq (hread : ∀ k : κ, (Kernel.readBuffer k).2 = k) (h : Hunt κ σ) :
    h.reread = h := by
  unfold Hunt.reread
  rw [hread]

variable [Roster σ]

/-- From `h`, with the uids `tried`, the hunt takes these turns and comes to this ending. -/
inductive Course (killer : Killer) (rows : List BundleRow) :
    List Int → Hunt κ σ → List Turn → Ending → Hunt κ σ → Prop
  | capReached {tried : List Int} {h : Hunt κ σ} (full : killer.cap ≤ h.report.killed.length) :
      Course killer rows tried h [] .capReached h
  | unreadable {tried : List Int} {h : Hunt κ σ} {error : KernelError}
      (room : h.report.killed.length < killer.cap)
      (read : (Kernel.readBuffer h.kernel).1 = .error error) :
      Course killer rows tried h [] (.unreadable error) h.reread
  | healthy {tried : List Int} {h : Hunt κ σ} {kb : Nat}
      (room : h.report.killed.length < killer.cap)
      (read : (Kernel.readBuffer h.kernel).1 = .ok kb)
      (tier : killer.tiers.minPriority? kb = none) :
      Course killer rows tried h [] (.healthy kb) h.reread
  | noVictim {tried : List Int} {h : Hunt κ σ} {kb : Nat} {floor : Int}
      (room : h.report.killed.length < killer.cap)
      (read : (Kernel.readBuffer h.kernel).1 = .ok kb)
      (tier : killer.tiers.minPriority? kb = some floor)
      (choice : victim? rows floor tried = none) :
      Course killer rows tried h [] (.noVictim kb floor) h.reread
  | turn {tried : List Int} {h h' : Hunt κ σ} {kb : Nat} {floor : Int} {row : BundleRow}
      {turns : List Turn} {ending : Ending}
      (room : h.report.killed.length < killer.cap)
      (read : (Kernel.readBuffer h.kernel).1 = .ok kb)
      (tier : killer.tiers.minPriority? kb = some floor)
      (choice : victim? rows floor tried = some row)
      (rest : Course killer rows (row.uid :: tried) (h.reread.attempt row) turns ending h') :
      Course killer rows tried h (⟨kb, floor, row⟩ :: turns) ending h'

variable {killer : Killer} {rows : List BundleRow} {row : BundleRow} {tried : List Int} {floor : Int}
  {h h' : Hunt κ σ} {turns : List Turn} {ending : Ending}

/-! ### Hunts and their courses -/

theorem exists_course (killer : Killer) (rows : List BundleRow) (tried : List Int) (h : Hunt κ σ) :
    ∃ turns ending, Course killer rows tried h turns ending (hunt killer rows tried h) := by
  fun_induction hunt killer rows tried h with
  | case1 tried h full => exact ⟨[], _, .capReached full⟩
  | case2 tried h room buffer h' error read =>
    exact ⟨[], _, .unreadable (Nat.lt_of_not_le room) read⟩
  | case3 tried h room buffer h' kb read tier =>
    exact ⟨[], _, .healthy (Nat.lt_of_not_le room) read tier⟩
  | case4 tried h room buffer h' kb read floor tier choice =>
    exact ⟨[], _, .noVictim (Nat.lt_of_not_le room) read tier choice⟩
  | case5 tried h room buffer h' kb read floor tier row choice ih =>
    obtain ⟨turns, ending, rest⟩ := ih
    exact ⟨_, ending, .turn (Nat.lt_of_not_le room) read tier choice rest⟩

theorem Course.eq_hunt (c : Course killer rows tried h turns ending h') :
    h' = hunt killer rows tried h := by
  induction c with
  | capReached full => rw [hunt, if_pos full]
  | unreadable room read =>
    rw [hunt, if_neg (Nat.not_le_of_lt room)]
    simp only [read]
    rfl
  | healthy room read tier =>
    rw [hunt, if_neg (Nat.not_le_of_lt room)]
    simp only [read, tier]
    rfl
  | noVictim room read tier choice =>
    rw [hunt, if_neg (Nat.not_le_of_lt room)]
    simp only [read, tier]
    split
    · rfl
    · rename_i row hv
      rw [choice] at hv
      cases hv
  | turn room read tier choice rest ih =>
    rw [hunt, if_neg (Nat.not_le_of_lt room)]
    simp only [read, tier]
    split
    · rename_i hv
      rw [choice] at hv
      cases hv
    · rename_i row hv
      cases choice.symm.trans hv
      exact ih

/-! ### The first turn -/

theorem Course.of_none (hread : ∀ k : κ, (Kernel.readBuffer k).2 = k)
    (c : Course killer rows tried h turns ending h')
    (hnone : h.report.killed.length < killer.cap → ∀ kb floor,
      (Kernel.readBuffer h.kernel).1 = .ok kb → killer.tiers.minPriority? kb = some floor →
      victim? rows floor tried = none) : h' = h ∧ turns = [] := by
  cases c with
  | turn room read tier choice rest => exact nomatch (hnone room _ _ read tier).symm.trans choice
  | capReached full => exact ⟨rfl, rfl⟩
  | _ => exact ⟨h.reread_eq hread, rfl⟩

theorem Course.of_some {kb : Nat} (c : Course killer rows tried h turns ending h')
    (room : h.report.killed.length < killer.cap) (read : (Kernel.readBuffer h.kernel).1 = .ok kb)
    (tier : killer.tiers.minPriority? kb = some floor)
    (choice : victim? rows floor tried = some row) : ∃ others, turns = ⟨kb, floor, row⟩ :: others ∧
      Course killer rows (row.uid :: tried) (h.reread.attempt row) others ending h' := by
  cases c with
  | capReached full => exact absurd full (Nat.not_le_of_lt room)
  | unreadable _ read' => exact nomatch read.symm.trans read'
  | healthy _ read' tier' =>
    cases read.symm.trans read'
    exact nomatch tier.symm.trans tier'
  | noVictim _ read' tier' choice' =>
    cases read.symm.trans read'
    cases tier.symm.trans tier'
    exact nomatch choice.symm.trans choice'
  | turn _ read' tier' choice' rest =>
    cases read.symm.trans read'
    cases tier.symm.trans tier'
    cases choice.symm.trans choice'
    exact ⟨_, rfl, rest⟩

/-! ### What one turn does -/

theorem Hunt.attempt_cases (h : Hunt κ σ) (row : BundleRow) :
    ((killPids row.pids h.kernel).1.gone = 0 ∧
        h.attempt row = { h with kernel := (killPids row.pids h.kernel).2 }) ∨
      (killPids row.pids h.kernel).1.gone ≠ 0 ∧
        h.attempt row =
          let kill : Kill :=
            ⟨row.uid, row.name, row.priority, (killPids row.pids h.kernel).1.freedKb⟩
          { kernel := (killPids row.pids h.kernel).2
            roster := (Roster.mark h.roster row.uid).2
            notices := h.notices ++ [kill.notice]
            report := h.report.add kill } := by
  unfold Hunt.attempt
  by_cases hgone : (killPids row.pids h.kernel).1.gone = 0
  · exact .inl ⟨hgone, if_pos hgone⟩
  · exact .inr ⟨hgone, if_neg hgone⟩

theorem Hunt.attempt_kernel (h : Hunt κ σ) (row : BundleRow) :
    (h.attempt row).kernel = (killPids row.pids h.kernel).2 := by
  rcases h.attempt_cases row with ⟨-, hrow⟩ | ⟨-, hrow⟩ <;> rw [hrow]

def Roster.markAll (s : σ) (uids : List Int) : σ :=
  uids.foldl (fun s uid => (Roster.mark s uid).2) s

theorem Roster.markAll_append (s : σ) (first others : List Int) :
    Roster.markAll s (first ++ others) = Roster.markAll (Roster.markAll s first) others :=
  List.foldl_append

theorem Roster.markAll_induction {P : σ → Prop} (mark : ∀ s uid, P s → P (Roster.mark s uid).2)
    {s : σ} (start : P s) (uids : List Int) : P (Roster.markAll s uids) := by
  induction uids generalizing s with
  | nil => exact start
  | cons uid uids ih => exact ih (mark s uid start)

/-- A bundle that is counted is marked and reported. -/
theorem Hunt.attempt_counts (h : Hunt κ σ) (row : BundleRow) : ∃ counted,
    counted.Sublist [row.uid] ∧
    (h.attempt row).report.killed.map Kill.uid = h.report.killed.map Kill.uid ++ counted ∧
    (h.attempt row).roster = Roster.markAll h.roster counted := by
  rcases h.attempt_cases row with ⟨-, hrow⟩ | ⟨-, hrow⟩
  · refine ⟨[], List.nil_sublist _, ?_, ?_⟩
    · rw [hrow, List.append_nil]
    · rw [hrow]
      rfl
  · refine ⟨[row.uid], List.Sublist.refl _, ?_, ?_⟩
    · rw [hrow]
      exact List.map_append
    · rw [hrow]
      rfl

theorem Hunt.attempt_killed_le (h : Hunt κ σ) (row : BundleRow) :
    (h.attempt row).report.killed.length ≤ h.report.killed.length + 1 := by
  obtain ⟨counted, hsub, huids, -⟩ := h.attempt_counts row
  have hlen := congrArg List.length huids
  have hcount := hsub.length_le
  simp only [List.length_append, List.length_map, List.length_singleton] at hlen hcount
  omega

/-! ### What all turns keep -/

/-- The bundle of the turn may be killed at the reading of the turn. -/
structure Turn.Fit (t : Turn) (killer : Killer) (rows : List BundleRow) : Prop where
  listed : t.row ∈ rows
  unpinned : t.row.pinned = false
  live : t.row.state ≠ .waitingForKill
  tier : killer.tiers.minPriority? t.bufferKb = some t.floor
  above : t.floor ≤ t.row.priority

theorem BundleRow.eligible_iff {row : BundleRow} {tried : List Int} : row.eligible tried = true ↔
    row.state ≠ .waitingForKill ∧ row.pinned = false ∧ row.uid ∉ tried := by
  simp [BundleRow.eligible, and_assoc]

theorem Course.fit (c : Course killer rows tried h turns ending h') :
    ∀ t ∈ turns, t.Fit killer rows := by
  induction c with
  | turn room read tier choice rest ih =>
    obtain ⟨hmem, hfloor, heligible⟩ := mem_of_victim? choice
    obtain ⟨hstate, hpin, -⟩ := BundleRow.eligible_iff.mp heligible
    exact List.forall_mem_cons.mpr ⟨⟨hmem, hpin, hstate, tier, hfloor⟩, ih⟩
  | _ => exact fun t ht => nomatch ht

theorem Course.killed_le (c : Course killer rows tried h turns ending h')
    (hcap : h.report.killed.length ≤ killer.cap) : h'.report.killed.length ≤ killer.cap := by
  induction c with
  | turn room read tier choice rest ih =>
    rename_i row _ _
    refine ih (Nat.le_trans (Hunt.attempt_killed_le _ row) ?_)
    exact room
  | _ => exact hcap

theorem Course.uids_nodup (c : Course killer rows tried h turns ending h') :
    (turns.map fun t => t.row.uid).Nodup ∧ ∀ t ∈ turns, t.row.uid ∉ tried := by
  induction c with
  | turn room read tier choice rest ih =>
    obtain ⟨-, -, heligible⟩ := mem_of_victim? choice
    obtain ⟨-, -, huntried⟩ := BundleRow.eligible_iff.mp heligible
    obtain ⟨hnodup, hnew⟩ := ih
    refine ⟨List.nodup_cons.mpr ⟨?_, hnodup⟩, ?_⟩
    · intro hmem
      obtain ⟨t, ht, huid⟩ := List.mem_map.mp hmem
      exact hnew t ht (List.mem_cons.mpr (.inl huid))
    · intro t ht
      cases ht with
      | head => exact huntried
      | tail _ ht => exact fun hmem => hnew t ht (List.mem_cons_of_mem _ hmem)
  | _ => exact ⟨List.nodup_nil, fun t ht => nomatch ht⟩

/-- The bundles that are counted are among those tried, in the order of the turns, and the roster is
told of them and of nothing else. -/
theorem Course.counts (c : Course killer rows tried h turns ending h') : ∃ counted,
    counted.Sublist (turns.map fun t => t.row.uid) ∧
    h'.report.killed.map Kill.uid = h.report.killed.map Kill.uid ++ counted ∧
    h'.roster = Roster.markAll h.roster counted := by
  induction c with
  | turn room read tier choice rest ih =>
    rename_i h _ _ _ row _ _
    obtain ⟨first, hfirst, huids, hroster⟩ := h.reread.attempt_counts row
    obtain ⟨counted, hsub, hkilled, hmarked⟩ := ih
    refine ⟨first ++ counted, hfirst.append hsub, ?_, ?_⟩
    · rw [hkilled, huids, List.append_assoc]
      rfl
    · rw [hmarked, hroster, Roster.markAll_append]
      rfl
  | _ => exact ⟨[], List.nil_sublist _, (List.append_nil _).symm, rfl⟩

theorem Course.roster_eq (c : Course killer rows tried h turns ending h')
    (hnew : h.report.killed = []) :
    h'.roster = Roster.markAll h.roster (h'.report.killed.map Kill.uid) := by
  obtain ⟨counted, -, hkilled, hmarked⟩ := c.counts
  rw [hmarked, hkilled, hnew]
  rfl

theorem Course.exists_turn (c : Course killer rows tried h turns ending h')
    (hnew : h.report.killed = []) {uid : Int} (hu : uid ∈ h'.report.killed.map Kill.uid) :
    ∃ t ∈ turns, t.row.uid = uid := by
  obtain ⟨counted, hsub, hkilled, -⟩ := c.counts
  rw [hkilled, hnew] at hu
  exact List.mem_map.mp (hsub.mem hu)

theorem Course.killed_uids_nodup (c : Course killer rows tried h turns ending h')
    (hnew : h.report.killed = []) : (h'.report.killed.map Kill.uid).Nodup := by
  obtain ⟨counted, hsub, hkilled, -⟩ := c.counts
  rw [hkilled, hnew]
  exact hsub.nodup c.uids_nodup.1

theorem Course.turns_length_le (c : Course killer rows tried h turns ending h') :
    turns.length ≤ (untried rows tried).length := by
  induction c with
  | turn room read tier choice rest ih => exact Nat.lt_of_le_of_lt ih (untried_lt choice)
  | _ => exact Nat.zero_le _

/-- What the hunt has published is what it reports. -/
def Hunt.Announced (h : Hunt κ σ) : Prop := h.notices = h.report.killed.map Kill.notice

theorem Hunt.attempt_announced (hann : h.Announced) (row : BundleRow) :
    (h.attempt row).Announced := by
  rcases h.attempt_cases row with ⟨-, hrow⟩ | ⟨-, hrow⟩
  · rw [hrow]
    exact hann
  · rw [hrow]
    unfold Hunt.Announced KillReport.add at *
    simp [hann]

theorem Course.announced (c : Course killer rows tried h turns ending h') (hann : h.Announced) :
    h'.Announced := by
  induction c with
  | turn room read tier choice rest ih =>
    rename_i h _ _ _ row _ _
    exact ih (h.reread.attempt_announced hann row)
  | _ => exact hann

/-! ### The ending -/

/-- What the ending tells about the hunt that it ends. -/
def Ending.Holds (killer : Killer) (h : Hunt κ σ) : Ending → Prop
  | .capReached => killer.cap ≤ h.report.killed.length
  | .unreadable _ => True
  | .healthy kb => killer.tiers.minPriority? kb = none
  | .noVictim kb floor => killer.tiers.minPriority? kb = some floor

theorem Course.holds (c : Course killer rows tried h turns ending h') : ending.Holds killer h' := by
  induction c with
  | capReached full => exact full
  | unreadable room read => exact True.intro
  | healthy room read tier => exact tier
  | noVictim room read tier choice => exact tier
  | turn room read tier choice rest ih => exact ih

end

end MemoryArbiter
