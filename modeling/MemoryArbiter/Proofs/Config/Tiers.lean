import MemoryArbiter.Config.Defect
import MemoryArbiter.Proofs.Killer.Course

/-! # Tiers that agree with one another

The check of a configuration compares neighbouring tiers.  That suffices for any two: in a table
that passes, the first tier above the free memory is the least one above it, the last tier is the
largest, and with more free memory the floor rises.  So the killer and the monitor agree on when
memory is healthy.
-/

namespace MemoryArbiter

namespace TierTable

variable {tiers : TierTable} {t u : Tier} {x y : Nat} {p q : Int}

/-- From any tier to any later one both the buffer and the priority rise. -/
def Ascends (tiers : TierTable) : Prop :=
  tiers.Pairwise fun t u => t.bufferKb < u.bufferKb ∧ t.minPriority < u.minPriority

/-- The tier is the smallest one above the free memory `x`. -/
def IsNext (tiers : TierTable) (x : Nat) (t : Tier) : Prop :=
  t ∈ tiers ∧ x < t.bufferKb ∧ ∀ u ∈ tiers, x < u.bufferKb → t.bufferKb ≤ u.bufferKb

/-- At the free memory `x` a bundle of this priority may be killed. -/
def Exposes (tiers : TierTable) (x : Nat) (priority : Int) : Prop :=
  ∃ p, tiers.minPriority? x = some p ∧ p ≤ priority

theorem orderDefect?_eq_none_iff (tiers : TierTable) :
    tiers.orderDefect? = none ↔ tiers.Ascends := by
  fun_induction orderDefect? tiers with
  | case1 t u rest hbuffer =>
    refine iff_of_false nofun fun h => ?_
    have hlt := ((List.pairwise_cons.mp h).1 u List.mem_cons_self).1
    omega
  | case2 t u rest hbuffer hpriority =>
    refine iff_of_false nofun fun h => ?_
    have hlt := ((List.pairwise_cons.mp h).1 u List.mem_cons_self).2
    omega
  | case3 t u rest hbuffer hpriority ih =>
    rw [ih]
    refine ⟨fun h => List.pairwise_cons.mpr ⟨fun v hv => ?_, h⟩,
      fun h => (List.pairwise_cons.mp h).2⟩
    -- beyond the neighbour the order is transitive
    rcases List.mem_cons.mp hv with rfl | hv
    · exact ⟨Nat.not_le.mp hbuffer, Int.not_le.mp hpriority⟩
    · obtain ⟨hfirst, hsecond⟩ := (List.pairwise_cons.mp h).1 v hv
      omega
  | case4 tiers hshort =>
    refine iff_of_true rfl ?_
    match tiers, hshort with
    | [], _ => exact List.Pairwise.nil
    | [t], _ => exact List.pairwise_singleton ..
    | t :: u :: rest, hshort => exact absurd rfl (hshort t u rest)

/-! ### The order of the tiers -/

theorem Ascends.cases (h : tiers.Ascends) (ht : t ∈ tiers) (hu : u ∈ tiers) :
    t = u ∨ (t.bufferKb < u.bufferKb ∧ t.minPriority < u.minPriority) ∨
      (u.bufferKb < t.bufferKb ∧ u.minPriority < t.minPriority) := by
  refine List.Pairwise.forall_of_forall_of_flip (R := fun t u => t = u ∨
      (t.bufferKb < u.bufferKb ∧ t.minPriority < u.minPriority) ∨
        (u.bufferKb < t.bufferKb ∧ u.minPriority < t.minPriority)) ?_ ?_ ?_ ht hu
  · exact fun _ _ => .inl rfl
  · exact h.imp fun hlt => .inr (.inl hlt)
  · exact h.imp fun hlt => .inr (.inr hlt)

theorem Ascends.minPriority_le (h : tiers.Ascends) (ht : t ∈ tiers) (hu : u ∈ tiers)
    (hle : t.bufferKb ≤ u.bufferKb) : t.minPriority ≤ u.minPriority := by
  rcases h.cases ht hu with rfl | hlt | hgt <;> omega

theorem Ascends.next_unique (h : tiers.Ascends) (ht : tiers.IsNext x t) (hu : tiers.IsNext x u) :
    t = u := by
  have hle := ht.2.2 u hu.1 hu.2.1
  have hge := hu.2.2 t ht.1 ht.2.1
  rcases h.cases ht.1 hu.1 with heq | hlt | hgt
  · exact heq
  · omega
  · omega

/-! ### The floor -/

theorem Ascends.isNext_of_find? (h : tiers.Ascends)
    (hfind : tiers.find? (fun t => x < t.bufferKb) = some t) : tiers.IsNext x t := by
  obtain ⟨habove, before, after, rfl, hbefore⟩ := List.find?_eq_some_iff_append.mp hfind
  obtain ⟨-, hrest, -⟩ := List.pairwise_append.mp h
  refine ⟨List.mem_append_right _ List.mem_cons_self, by simpa using habove, fun u hu hx => ?_⟩
  rcases List.mem_append.mp hu with hu | hu
  · have hnot := hbefore u hu
    simp only [hx, decide_true, Bool.not_true, Bool.false_eq_true] at hnot
  · rcases List.mem_cons.mp hu with rfl | hu
    · exact Nat.le_refl _
    · exact Nat.le_of_lt ((List.pairwise_cons.mp hrest).1 u hu).1

theorem minPriority?_eq_none_iff (tiers : TierTable) (x : Nat) :
    tiers.minPriority? x = none ↔ ∀ t ∈ tiers, t.bufferKb ≤ x := by
  simp [minPriority?]

theorem Ascends.minPriority?_eq_some_iff (h : tiers.Ascends) :
    tiers.minPriority? x = some p ↔ ∃ t, tiers.IsNext x t ∧ p = t.minPriority := by
  constructor
  · intro hp
    obtain ⟨t, hfind, rfl⟩ := Option.map_eq_some_iff.mp hp
    exact ⟨t, h.isNext_of_find? hfind, rfl⟩
  · rintro ⟨t, hnext, rfl⟩
    unfold minPriority?
    cases hfind : tiers.find? fun t => x < t.bufferKb with
    | none =>
      have hnot := List.find?_eq_none.mp hfind t hnext.1
      simp [hnext.2.1] at hnot
    | some u => rw [h.next_unique hnext (h.isNext_of_find? hfind), Option.map_some]

theorem Ascends.minPriority?_mono (h : tiers.Ascends) (hxy : x ≤ y)
    (hp : tiers.minPriority? x = some p) (hq : tiers.minPriority? y = some q) : p ≤ q := by
  obtain ⟨t, ht, rfl⟩ := h.minPriority?_eq_some_iff.mp hp
  obtain ⟨u, hu, rfl⟩ := h.minPriority?_eq_some_iff.mp hq
  exact h.minPriority_le ht.1 hu.1 (ht.2.2 u hu.1 (Nat.lt_of_le_of_lt hxy hu.2.1))

theorem Ascends.exposes_of_le (h : tiers.Ascends) (hxy : x ≤ y) {priority : Int}
    (hy : tiers.Exposes y priority) : tiers.Exposes x priority := by
  obtain ⟨q, hq, hle⟩ := hy
  obtain ⟨u, hu, -⟩ := h.minPriority?_eq_some_iff.mp hq
  cases hp : tiers.minPriority? x with
  | none =>
    have hhealthy := (tiers.minPriority?_eq_none_iff x).mp hp u hu.1
    have habove := hu.2.1
    omega
  | some p => exact ⟨p, hp, Int.le_trans (h.minPriority?_mono hxy hp hq) hle⟩

/-! ### The top tier -/

/-- The last tier is the largest. -/
theorem Ascends.exists_top (h : tiers.Ascends) (hne : tiers ≠ []) :
    ∃ t ∈ tiers, t.bufferKb = tiers.topBuffer ∧ ∀ u ∈ tiers, u.bufferKb ≤ t.bufferKb := by
  obtain ⟨lower, t, rfl⟩ := List.eq_nil_or_concat tiers |>.resolve_left hne
  rw [List.concat_eq_append] at *
  obtain ⟨-, -, hlower⟩ := List.pairwise_append.mp h
  refine ⟨t, by simp, by simp [topBuffer], fun u hu => ?_⟩
  rcases List.mem_append.mp hu with hu | hu
  · exact Nat.le_of_lt (hlower u hu t (List.mem_singleton_self t)).1
  · exact Nat.le_of_eq (congrArg Tier.bufferKb (List.mem_singleton.mp hu))

theorem Ascends.healthy_iff (h : tiers.Ascends) (hne : tiers ≠ []) :
    tiers.minPriority? x = none ↔ tiers.topBuffer ≤ x := by
  obtain ⟨t, ht, htop, hmax⟩ := h.exists_top hne
  rw [minPriority?_eq_none_iff, ← htop]
  exact ⟨fun hall => hall t ht, fun hle u hu => Nat.le_trans (hmax u hu) hle⟩

theorem Ascends.lt_topBuffer_iff (h : tiers.Ascends) (hne : tiers ≠ []) :
    x < tiers.topBuffer ↔ (tiers.minPriority? x).isSome = true := by
  rw [← Nat.not_le, ← h.healthy_iff hne, Option.isSome_iff_ne_none]

end TierTable

/-! ### Monitors and passes -/

section

variable {κ σ : Type} [Kernel κ] [Roster σ] {killer : Killer} {rows : List BundleRow}
  {kernel : κ} {roster : σ} {h : Hunt κ σ} {turns : List Turn} {ending : Ending} {x : Nat}

/-- Without stall averages a sample depends on the free memory alone. -/
theorem Monitor.sample_of_no_stall (m : Monitor) (hread : (Kernel.readBuffer kernel).1 = .ok x)
    (hstall : ∀ stall, Kernel.readStall (Kernel.readBuffer kernel).2 ≠ .ok (some stall)) :
    (m.sample kernel).1 = decide (x < m.topKb) := by
  have hnone : (Kernel.readStall (Kernel.readBuffer kernel).2).toOption.bind id = none := by
    cases hs : Kernel.readStall (Kernel.readBuffer kernel).2 with
    | error e => rfl
    | ok stall? =>
      cases stall? with
      | none => rfl
      | some stall => exact absurd hs (hstall stall)
  unfold Monitor.sample Monitor.callsForPass
  simp only [hread, hnone]
  simp [Except.toOption]

/-- A hunt that starts at the free memory `x` finds it healthy if and only if there is no floor. -/
theorem Course.healthy_iff (c : Course killer rows [] { kernel, roster } turns ending h)
    (hread : (Kernel.readBuffer kernel).1 = .ok x) :
    turns = [] ∧ ending = .healthy x ↔ killer.tiers.minPriority? x = none := by
  constructor
  · rintro ⟨rfl, rfl⟩
    exact c.holds
  · intro hnone
    cases c with
    | capReached full =>
      have hcap : 1 ≤ killer.cap := Nat.le_max_right ..
      exact absurd (Nat.le_trans hcap full) (Nat.not_succ_le_zero 0)
    | unreadable room read => exact nomatch read.symm.trans hread
    | healthy room read tier =>
      cases read.symm.trans hread
      exact ⟨rfl, rfl⟩
    | noVictim room read tier choice =>
      cases read.symm.trans hread
      exact nomatch tier.symm.trans hnone
    | turn room read tier choice rest =>
      cases read.symm.trans hread
      exact nomatch tier.symm.trans hnone

end

/-! ### Configurations without a defect -/

namespace Config

variable {c : Config}

theorem tiers_of_defect?_eq_none (hc : c.defect? = none) : c.killTiers ≠ [] ∧
    c.killTiers.Ascends ∧ ∀ t ∈ c.killTiers, Level.system < t.minPriority := by
  unfold defect? at hc
  split at hc
  · cases hc
  · rename_i hne
    split at hc
    · cases hc
    · rename_i horder
      split at hc
      · cases hc
      · rename_i hpinned
        refine ⟨by simpa using hne, (TierTable.orderDefect?_eq_none_iff _).mp horder, ?_⟩
        simpa using hpinned

/-- What all that work with the tiers of a configuration agree on. -/
structure TiersAgree (c : Config) : Prop where
  nonempty : c.killTiers ≠ []
  ascends : c.killTiers.Pairwise fun t u =>
    t.bufferKb < u.bufferKb ∧ t.minPriority < u.minPriority
  aboveSystem : ∀ t ∈ c.killTiers, Level.system < t.minPriority
  floor : ∀ x p, c.makeKiller.tiers.minPriority? x = some p ↔
    ∃ t ∈ c.killTiers, x < t.bufferKb ∧
      (∀ u ∈ c.killTiers, x < u.bufferKb → t.bufferKb ≤ u.bufferKb) ∧ p = t.minPriority
  healthy : ∀ x, c.makeKiller.tiers.minPriority? x = none ↔ c.makeKiller.tiers.topBuffer ≤ x
  top : c.makeKiller.tiers.topBuffer = c.topBufferKb ∧
    ∃ t ∈ c.killTiers, t.bufferKb = c.topBufferKb ∧ ∀ u ∈ c.killTiers, u.bufferKb ≤ c.topBufferKb
  rises : ∀ x y p q, x ≤ y → c.makeKiller.tiers.minPriority? x = some p →
    c.makeKiller.tiers.minPriority? y = some q → p ≤ q
  /-- With more free memory no more bundles may be killed. -/
  shrinks : ∀ x y priority, x ≤ y → c.makeKiller.tiers.Exposes y priority →
    c.makeKiller.tiers.Exposes x priority
  /-- Without stall averages a sample calls for a pass if and only if a pass at the same free memory
  has a floor, and so does not find memory healthy at once. -/
  monitor : ∀ {κ σ : Type} [Kernel κ] [Roster σ] (kernel : κ) (roster : σ) (x : Nat),
    (Kernel.readBuffer kernel).1 = .ok x →
    (∀ stall, Kernel.readStall (Kernel.readBuffer kernel).2 ≠ .ok (some stall)) →
    ((c.monitor.sample kernel).1 = true ↔
      (c.makeKiller.tiers.minPriority? x).isSome = true) ∧
    ∀ rows turns ending h, Course c.makeKiller rows [] { kernel, roster } turns ending h →
      ((c.monitor.sample kernel).1 = true ↔ ¬ (turns = [] ∧ ending = .healthy x))

/-- A configuration without a defect has tiers on which the killer and the monitor agree. -/
theorem tiers_agree (c : Config) (hc : c.defect? = none) : c.TiersAgree := by
  obtain ⟨hne, hascends, hsystem⟩ := tiers_of_defect?_eq_none hc
  obtain ⟨t, ht, htop, hmax⟩ := hascends.exists_top hne
  refine ⟨hne, hascends, hsystem, fun x p => ?_, fun x => hascends.healthy_iff hne,
    ⟨rfl, t, ht, htop, fun u hu => Nat.le_trans (hmax u hu) (Nat.le_of_eq htop)⟩,
    fun x y p q hxy => hascends.minPriority?_mono hxy,
    fun x y priority hxy => hascends.exposes_of_le hxy, ?_⟩
  · refine hascends.minPriority?_eq_some_iff.trans (exists_congr fun t => ?_)
    unfold TierTable.IsNext
    rw [and_assoc, and_assoc]
  · intro κ σ _ _ kernel roster x hread hstall
    have hsample : (c.monitor.sample kernel).1 = true ↔
        (c.makeKiller.tiers.minPriority? x).isSome = true := by
      rw [c.monitor.sample_of_no_stall hread hstall, decide_eq_true_iff]
      exact hascends.lt_topBuffer_iff hne
    refine ⟨hsample, fun rows turns ending h course => ?_⟩
    rw [hsample, course.healthy_iff hread, Option.isSome_iff_ne_none]

/-- Two tiers, the lower one of which exposes more than the foreground level. -/
theorem tiers_agree_at_edge : ∃ c : Config, c.defect? = none ∧ c.TiersAgree ∧
    c.makeKiller.tiers.minPriority? 999 = some (-50) ∧
    c.makeKiller.tiers.minPriority? 1000 = some 400 ∧
    c.makeKiller.tiers.minPriority? 4000 = none := by
  let c : Config := { killTiers := [⟨1000, -50⟩, ⟨4000, 400⟩] }
  have hc : c.defect? = none := by decide
  exact ⟨c, hc, tiers_agree c hc, by decide, by decide, by decide⟩

end Config

end MemoryArbiter
