import MemoryArbiter.Kernel.Simulated
import MemoryArbiter.Proofs.Killer.Recorder

/-! # A pass is one sweep

The hunt looks for its victim anew in each turn, under a floor that may rise and fall.  Over rows
that are sorted by priority it does what one sweep does that goes once over the rows, from the least
important bundle on, and never looks back.
-/

namespace MemoryArbiter

section

variable {κ σ : Type} [Kernel κ] [Roster σ]

/-- The hunt after the pids of `row` were killed with this outcome: the bundle is marked, published
and counted if at least one kill landed. -/
def Hunt.settle (h : Hunt κ σ) (row : BundleRow) (outcome : KillTally × κ) : Hunt κ σ :=
  if 0 < outcome.1.gone then
    let kill : Kill := ⟨row.uid, row.name, row.priority, outcome.1.freedKb⟩
    { kernel := outcome.2
      roster := (Roster.mark h.roster row.uid).2
      notices := h.notices ++ [kill.notice]
      report := h.report.add kill }
  else { h with kernel := outcome.2 }

/-- Go over `rows` once.  The second part of the result are the rows that were attempted. -/
def Killer.sweep (killer : Killer) : List BundleRow → Hunt κ σ → Hunt κ σ × List BundleRow
  | [], h => (h, [])
  | row :: rows, h =>
    if row.pinned ∨ row.state = .waitingForKill then killer.sweep rows h
    else if killer.cap ≤ h.report.killed.length then (h, [])
    else
      match (Kernel.readBuffer h.kernel).1 with
      | .error _ => (h, [])
      | .ok kb =>
        match killer.tiers.minPriority? kb with
        | none => (h, [])
        | some floor =>
          if row.priority < floor then (h, [])
          else
            let rest := killer.sweep rows (h.settle row (killPids row.pids h.kernel))
            (rest.1, row :: rest.2)

variable {killer : Killer} {rows done rest : List BundleRow} {row : BundleRow} {tried : List Int}
  {floor : Int} {h h' : Hunt κ σ} {turns : List Turn} {ending : Ending}

theorem Hunt.attempt_eq_settle (h : Hunt κ σ) (row : BundleRow) :
    h.attempt row = h.settle row (killPids row.pids h.kernel) := by
  unfold Hunt.settle
  rcases h.attempt_cases row with ⟨hgone, hrow⟩ | ⟨hgone, hrow⟩
  · rw [hrow, if_neg (by omega)]
  · rw [hrow, if_pos (by omega)]

/-! ### The victim among sorted rows -/

theorem find?_takeWhile {α : Type} {p q : α → Bool} {l : List α}
    (hl : l.Pairwise fun a b => p b = true → p a = true) :
    (l.takeWhile p).find? q = l.find? fun a => p a && q a := by
  induction l with
  | nil => rfl
  | cons a l ih =>
    obtain ⟨ha, hl⟩ := List.pairwise_cons.mp hl
    by_cases hp : p a = true
    · rw [List.takeWhile_cons_of_pos hp, List.find?_cons, List.find?_cons, ih hl, hp,
        Bool.true_and]
    · rw [List.takeWhile_cons_of_neg hp, List.find?_nil]
      refine (List.find?_eq_none.mpr ?_).symm
      intro b hb
      have hnot : ¬ p b = true := by
        cases hb with
        | head => exact hp
        | tail _ hb => exact fun hpb => hp (ha b hb hpb)
      simp [hnot]

/-- The rows are sorted by priority, the most important first. -/
def Sorted (rows : List BundleRow) : Prop := rows.Pairwise fun a b => a.priority ≤ b.priority

theorem Sorted.victim?_eq (hs : Sorted rows) (floor : Int) (tried : List Int) :
    victim? rows floor tried =
      rows.reverse.find? fun row => decide (floor ≤ row.priority) && row.eligible tried := by
  refine find?_takeWhile (List.pairwise_reverse.mpr (hs.imp fun {a b} hab => ?_))
  simp only [decide_eq_true_eq]
  omega

theorem Sorted.mem_tried_of_victim? (hs : Sorted rows) (hnone : victim? rows floor tried = none)
    (hrow : row ∈ rows) (hpin : row.pinned = false) (hstate : row.state ≠ .waitingForKill)
    (hfloor : floor ≤ row.priority) : row.uid ∈ tried := by
  rw [hs.victim?_eq] at hnone
  have hnot := List.find?_eq_none.mp hnone row (List.mem_reverse.mpr hrow)
  simp only [hfloor, decide_true, Bool.true_and] at hnot
  by_cases hmem : row.uid ∈ tried
  · exact hmem
  · exact absurd (BundleRow.eligible_iff.mpr ⟨hstate, hpin, hmem⟩) hnot

/-! ### Sweeping -/

/-- The sweep is done with `done`: what is left of the rows is `rest`, and nothing in it was
tried. -/
structure Swept (rows done rest : List BundleRow) (tried : List Int) : Prop where
  split : rows.reverse = done ++ rest
  sorted : Sorted rows
  distinct : (rest.map BundleRow.uid).Nodup
  passed : ∀ row ∈ done, row.eligible tried = false
  fresh : ∀ row ∈ rest, row.uid ∉ tried

theorem swept_start (hs : Sorted rows) (hd : (rows.map BundleRow.uid).Nodup) :
    Swept rows [] rows.reverse [] := by
  have hdistinct : (rows.reverse.map BundleRow.uid).Nodup := by
    rw [List.map_reverse]
    exact (List.reverse_perm _).symm.nodup hd
  exact ⟨rfl, hs, hdistinct, fun _ hrow => absurd hrow List.not_mem_nil,
    fun _ _ => List.not_mem_nil⟩

theorem Swept.skip (w : Swept rows done (row :: rest) tried)
    (hskip : row.pinned = true ∨ row.state = .waitingForKill) :
    Swept rows (done ++ [row]) rest tried := by
  refine ⟨by rw [w.split, List.append_assoc]; rfl, w.sorted, (List.nodup_cons.mp w.distinct).2,
    ?_, fun r hr => w.fresh r (List.mem_cons_of_mem _ hr)⟩
  intro r hr
  rcases List.mem_append.mp hr with hr | hr
  · exact w.passed r hr
  · rw [List.mem_singleton.mp hr]
    rcases hskip with hskip | hskip <;> simp [BundleRow.eligible, hskip]

theorem Swept.attempted (w : Swept rows done (row :: rest) tried) :
    Swept rows (done ++ [row]) rest (row.uid :: tried) := by
  obtain ⟨hnew, hdistinct⟩ := List.nodup_cons.mp w.distinct
  refine ⟨by rw [w.split, List.append_assoc]; rfl, w.sorted, hdistinct, ?_, ?_⟩
  · intro r hr
    rw [Bool.eq_false_iff]
    intro heligible
    obtain ⟨hstate, hpin, huntried⟩ := BundleRow.eligible_iff.mp heligible
    rw [List.mem_cons, not_or] at huntried
    rcases List.mem_append.mp hr with hr | hr
    · have hpassed := w.passed r hr
      rw [BundleRow.eligible_iff.mpr ⟨hstate, hpin, huntried.2⟩] at hpassed
      cases hpassed
    · rw [List.mem_singleton.mp hr] at huntried
      exact huntried.1 rfl
  · intro r hr hmem
    rcases List.mem_cons.mp hmem with huid | hmem
    · rw [← huid] at hnew
      exact hnew (List.mem_map_of_mem hr)
    · exact w.fresh r (List.mem_cons_of_mem _ hr) hmem

theorem Swept.find?_done (w : Swept rows done rest tried) (floor : Int) :
    (done.find? fun row => decide (floor ≤ row.priority) && row.eligible tried) = none := by
  refine List.find?_eq_none.mpr ?_
  intro r hr
  simp [w.passed r hr]

theorem Swept.victim?_of_le (w : Swept rows done (row :: rest) tried)
    (hskip : ¬ (row.pinned = true ∨ row.state = .waitingForKill)) (hfloor : floor ≤ row.priority) :
    victim? rows floor tried = some row := by
  rw [not_or, Bool.not_eq_true] at hskip
  have heligible : row.eligible tried = true :=
    BundleRow.eligible_iff.mpr ⟨hskip.2, hskip.1, w.fresh row (List.mem_cons_self ..)⟩
  rw [w.sorted.victim?_eq, w.split, List.find?_append, w.find?_done floor, Option.none_or]
  exact List.find?_cons_of_pos (by simp [hfloor, heligible])

theorem Swept.victim?_of_lt (w : Swept rows done rest tried)
    (hfloor : ∀ row ∈ rest, row.priority < floor) : victim? rows floor tried = none := by
  rw [w.sorted.victim?_eq, w.split, List.find?_append, w.find?_done floor, Option.none_or]
  refine List.find?_eq_none.mpr ?_
  intro r hr
  have hlt := hfloor r hr
  have hnot : ¬ floor ≤ r.priority := by omega
  simp [hnot]

theorem Swept.priority_le (w : Swept rows done (row :: rest) tried) :
    ∀ r ∈ row :: rest, r.priority ≤ row.priority := by
  have hdesc : rows.reverse.Pairwise fun a b => b.priority ≤ a.priority :=
    List.pairwise_reverse.mpr w.sorted
  rw [w.split] at hdesc
  obtain ⟨-, hrest, -⟩ := List.pairwise_append.mp hdesc
  intro r hr
  cases hr with
  | head => exact Int.le_refl _
  | tail _ hr => exact (List.pairwise_cons.mp hrest).1 r hr

/-! ### The sweep as a course -/

theorem Killer.sweep_cases (killer : Killer) (rest : List BundleRow) (h : Hunt κ σ)
    (hskip : ¬ (row.pinned = true ∨ row.state = .waitingForKill)) :
    (killer.sweep (row :: rest) h = (h, []) ∧
        (h.report.killed.length < killer.cap → ∀ kb floor, (Kernel.readBuffer h.kernel).1 = .ok kb →
          killer.tiers.minPriority? kb = some floor → row.priority < floor)) ∨
      (killer.sweep (row :: rest) h =
          ((killer.sweep rest (h.attempt row)).1, row :: (killer.sweep rest (h.attempt row)).2) ∧
        h.report.killed.length < killer.cap ∧ ∃ kb floor, (Kernel.readBuffer h.kernel).1 = .ok kb ∧
          killer.tiers.minPriority? kb = some floor ∧ floor ≤ row.priority) := by
  rw [Killer.sweep, if_neg hskip, h.attempt_eq_settle row]
  by_cases full : killer.cap ≤ h.report.killed.length
  · rw [if_pos full]
    exact .inl ⟨rfl, fun room => absurd full (Nat.not_le_of_lt room)⟩
  · rw [if_neg full]
    split
    · rename_i error read
      exact .inl ⟨rfl, fun _ kb floor hkb => nomatch read.symm.trans hkb⟩
    · rename_i kb read
      split
      · rename_i tier
        refine .inl ⟨rfl, ?_⟩
        intro _ kb' floor hkb htier
        cases read.symm.trans hkb
        exact nomatch tier.symm.trans htier
      · rename_i floor tier
        by_cases hfloor : row.priority < floor
        · rw [if_pos hfloor]
          refine .inl ⟨rfl, ?_⟩
          intro _ kb' floor' hkb htier
          cases read.symm.trans hkb
          cases tier.symm.trans htier
          exact hfloor
        · rw [if_neg hfloor]
          exact .inr ⟨rfl, Nat.lt_of_not_le full, kb, floor, read, tier, Int.not_lt.mp hfloor⟩

/-- The sweep over the rows that are left goes the way of the hunt. -/
theorem Swept.sweep_eq (hread : ∀ k : κ, (Kernel.readBuffer k).2 = k)
    (w : Swept rows done rest tried) (c : Course killer rows tried h turns ending h') :
    killer.sweep rest h = (h', turns.map Turn.row) := by
  induction rest generalizing done tried h turns with
  | nil =>
    obtain ⟨rfl, rfl⟩ := c.of_none hread fun _ _ floor _ _ =>
      w.victim?_of_lt fun _ hrow => absurd hrow List.not_mem_nil
    rfl
  | cons row rest ih =>
    by_cases hskip : row.pinned = true ∨ row.state = .waitingForKill
    · rw [Killer.sweep, if_pos hskip]
      exact ih (w.skip hskip) c
    · rcases killer.sweep_cases rest h hskip with ⟨hstop, hbelow⟩ | ⟨hgo, room, kb, floor, hturn⟩
      · obtain ⟨rfl, rfl⟩ := c.of_none hread fun room kb floor read tier => by
          refine w.victim?_of_lt ?_
          intro r hr
          have hle := w.priority_le r hr
          have hlt := hbelow room kb floor read tier
          omega
        exact hstop
      · obtain ⟨read, tier, hfloor⟩ := hturn
        obtain ⟨others, rfl, hrest⟩ := c.of_some room read tier (w.victim?_of_le hskip hfloor)
        rw [h.reread_eq hread] at hrest
        rw [hgo, ih w.attempted hrest, List.map_cons]

theorem Killer.pass_eq_sweep (killer : Killer) (kernel : κ) {roster : σ}
    (hrows : Roster.rows roster = .ok rows) (hsorted : Sorted rows)
    (hdistinct : (rows.map BundleRow.uid).Nodup)
    (hread : ∀ k : κ, (Kernel.readBuffer k).2 = k) :
    (killer.pass kernel roster).1 = (killer.sweep rows.reverse { kernel, roster }).1 := by
  obtain ⟨turns, ending, c⟩ := killer.pass_course kernel hrows
  rw [(swept_start hsorted hdistinct).sweep_eq hread c]

/-! ### How a hunt ends -/

/-- Why there is nothing left to do after a pass that has attempted the rows `attempted`. -/
def Finished (killer : Killer) (rows attempted : List BundleRow)
    (h : Hunt (RecordedKernel κ) (RecordedRoster σ)) : Prop :=
  killer.cap ≤ h.report.killed.length ∨
    ∃ answer, h.kernel.calls.getLast? = some (.readBuffer answer) ∧
      ((∃ error, answer = .error error) ∨
        ∃ kb, answer = .ok kb ∧ (killer.tiers.minPriority? kb = none ∨
          ∃ floor, killer.tiers.minPriority? kb = some floor ∧
            ∀ row ∈ rows, row.pinned = false → row.state ≠ .waitingForKill →
              floor ≤ row.priority → row ∈ attempted))

theorem Course.mem_tried (c : Course killer rows tried h turns ending h') (hs : Sorted rows)
    {kb : Nat} (hending : ending = .noVictim kb floor) (hrow : row ∈ rows)
    (hpin : row.pinned = false) (hstate : row.state ≠ .waitingForKill)
    (hfloor : floor ≤ row.priority) : row.uid ∈ tried ∨ ∃ t ∈ turns, t.row.uid = row.uid := by
  induction c with
  | noVictim room read tier choice =>
    cases hending
    exact .inl (hs.mem_tried_of_victim? choice hrow hpin hstate hfloor)
  | turn room read tier choice rest ih =>
    rcases ih hending with hmem | ⟨t, ht, huid⟩
    · rcases List.mem_cons.mp hmem with huid | hmem
      · exact .inr ⟨_, List.mem_cons_self .., huid.symm⟩
      · exact .inl hmem
    · exact .inr ⟨t, List.mem_cons_of_mem _ ht, huid⟩
  | _ => cases hending

theorem eq_of_uid_eq (hd : (rows.map BundleRow.uid).Nodup) {r : BundleRow} (hr : r ∈ rows)
    (hrow : row ∈ rows) (huid : r.uid = row.uid) : r = row := by
  have hne : rows.Pairwise fun a b => a.uid ≠ b.uid := List.pairwise_map.mp hd
  have hself : ∀ a ∈ rows, a.uid = a.uid → a = a := fun _ _ _ => rfl
  have hleft : rows.Pairwise fun a b => a.uid = b.uid → a = b :=
    hne.imp fun hab heq => absurd heq hab
  have hright : rows.Pairwise (flip fun a b => a.uid = b.uid → a = b) :=
    hne.imp fun hab heq => absurd heq.symm hab
  exact List.Pairwise.forall_of_forall_of_flip hself hleft hright hr hrow huid

theorem Course.finished {h h' : Hunt (RecordedKernel κ) (RecordedRoster σ)}
    (c : Course killer rows [] h turns ending h') (hs : Sorted rows)
    (hd : (rows.map BundleRow.uid).Nodup) : Finished killer rows (turns.map Turn.row) h' := by
  obtain ⟨calls, transcript, hcalls⟩ := c.transcript
  have hlast : ∀ answer, ending.answer? = some answer →
      h'.kernel.calls.getLast? = some (.readBuffer answer) := by
    intro answer ha
    rw [hcalls, List.getLast?_append, transcript.getLast? ha]
    rfl
  have hholds := c.holds
  cases hending : ending with
  | capReached =>
    rw [hending] at hholds
    exact .inl hholds
  | unreadable error =>
    rw [hending] at hlast
    exact .inr ⟨_, hlast _ rfl, .inl ⟨error, rfl⟩⟩
  | healthy kb =>
    rw [hending] at hlast hholds
    exact .inr ⟨_, hlast _ rfl, .inr ⟨kb, rfl, .inl hholds⟩⟩
  | noVictim kb floor =>
    rw [hending] at hlast hholds
    refine .inr ⟨_, hlast _ rfl, .inr ⟨kb, rfl, .inr ⟨floor, hholds, ?_⟩⟩⟩
    intro row hrow hpin hstate hfloor
    rcases c.mem_tried hs hending hrow hpin hstate hfloor with hmem | ⟨t, ht, huid⟩
    · exact absurd hmem List.not_mem_nil
    · rw [← eq_of_uid_eq hd (c.fit t ht).listed hrow huid]
      exact List.mem_map_of_mem ht

/-! ### Every pass -/

/-- A pass over `rows` is one sweep over them, from the last row to the first. -/
structure SweptPass (killer : Killer) (kernel : κ) (roster : σ) (rows : List BundleRow) : Prop where
  /-- The same kernel, roster and report are left. -/
  same : (killer.pass kernel roster).1 = (killer.sweep rows.reverse { kernel, roster }).1
  /-- The same bundles are attempted in the same order. -/
  attempted : ∃ turns ending,
    Course killer rows [] { kernel, roster } turns ending (killer.pass kernel roster).1 ∧
      turns.map Turn.row = (killer.sweep rows.reverse { kernel, roster }).2
  /-- The kills that are sent are those of the bundles attempted. -/
  targets : (killer.recordedPass kernel roster).1.kernel.calls.filterMap KernelCall.target? =
    (killer.sweep rows.reverse { kernel, roster }).2.flatMap BundleRow.pids
  reads : (killer.recordedPass kernel roster).1.kernel.calls.countP KernelCall.isRead ≤
    rows.length + 1
  finished : Finished killer rows (killer.sweep rows.reverse { kernel, roster }).2
    (killer.recordedPass kernel roster).1

/-- Over sorted rows of distinct bundles, and with reads that leave the kernel as it is, a pass is
one sweep; it ends, and it does not end early. -/
theorem Killer.pass_swept (killer : Killer) (kernel : κ) (roster : σ) (rows : List BundleRow)
    (hrows : Roster.rows roster = .ok rows) (hsorted : Sorted rows)
    (hdistinct : (rows.map BundleRow.uid).Nodup)
    (hread : ∀ k : κ, (Kernel.readBuffer k).2 = k) : SweptPass killer kernel roster rows := by
  have w := swept_start hsorted hdistinct
  obtain ⟨turns, ending, recorded, c, transcript⟩ := killer.recordedPass_course kernel hrows
  have hsweep := w.sweep_eq hread c
  have hlen : turns.length ≤ rows.length :=
    Nat.le_trans c.turns_length_le (List.length_filter_le _ _)
  refine ⟨?_, ⟨turns, ending, c, ?_⟩, ?_, ?_, ?_⟩
  · rw [hsweep]
  · rw [hsweep]
  · rw [hsweep]
    exact transcript.targets
  · exact Nat.le_trans transcript.reads_le (Nat.succ_le_succ hlen)
  · rw [hsweep]
    exact recorded.finished hsorted hdistinct

end

/-- A refused bundle does not use up the cap: the sweep goes on to the next one. -/
theorem pass_swept_past_refusal :
    ∃ (killer : Killer) (kernel : SimulatedKernel) (roster : FixedRoster) (rows : List BundleRow),
      Roster.rows roster = .ok rows ∧ Sorted rows ∧ (rows.map BundleRow.uid).Nodup ∧
        (∀ k : SimulatedKernel, (Kernel.readBuffer k).2 = k) ∧
        SweptPass killer kernel roster rows ∧ killer.cap = 1 ∧ rows.map BundleRow.uid = [1, 2] ∧
        (killer.pass kernel roster).1.kernel.killed = [11] ∧
        (killer.pass kernel roster).1.report.killed.map Kill.uid = [1] := by
  let killer : Killer := { tiers := TierTable.default, maxKills := 1 }
  let kernel := ((SimulatedKernel.new 90000).spawn 11 500).spawn 21 800 |>.deny 21
  let rows : List BundleRow :=
    [⟨1, "mail", 200, 0, .normal, false, [11]⟩, ⟨2, "game", 400, 0, .normal, false, [21]⟩]
  let roster : FixedRoster := { rows := some rows }
  have hrows : Roster.rows roster = .ok rows := rfl
  have hsorted : Sorted rows := List.pairwise_pair.mpr (by decide)
  have hdistinct : (rows.map BundleRow.uid).Nodup := by decide
  have hread : ∀ k : SimulatedKernel, (Kernel.readBuffer k).2 = k := fun _ => rfl
  have hswept : SweptPass killer kernel roster rows :=
    Killer.pass_swept killer kernel roster rows hrows hsorted hdistinct hread
  refine ⟨killer, kernel, roster, rows, hrows, hsorted, hdistinct, hread, hswept, rfl, rfl, ?_, ?_⟩
  · rw [hswept.same]
    decide
  · rw [hswept.same]
    decide

end MemoryArbiter
