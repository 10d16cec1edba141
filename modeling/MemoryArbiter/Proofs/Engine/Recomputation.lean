import MemoryArbiter.Proofs.Engine.Range
import MemoryArbiter.Proofs.Engine.Soundness

/-! # Recomputation from scratch

The priorities that an engine keeps are those that one would compute anew from the levels, the
pinned bundles, the settings and the account in the foreground, and the listing of the bundles is
the sorted one.  The least level of a bundle gives its priority as long as no process of the bundle
is moved so far that its priority wraps around.
-/

namespace MemoryArbiter

namespace Engine

variable {e : Engine} {uid : Int} {b : Bundle}

/-! ### Bundles -/

theorem Sound.priority_of_pinned (h : e.Sound) (hb : e.bundles.get? uid = some b)
    (hpin : b.pinned = true) : b.priority = Level.system := by
  obtain ⟨pid, p, hp, hu, hpb⟩ := ((h.priced uid).bundle b hb).attained
  rw [← hpb, (h.priced uid).process pid p b hp hu hb]
  simp [due, hpin]

theorem Sound.row_of_mem_ranks (h : e.Sound) {r : Rank} (hr : r ∈ e.index.ranks) :
    ∃ b, e.bundles.get? r.uid = some b ∧ b.row.priority = r.priority ∧ b.row.uid = r.uid := by
  have hget := (h.coherent r).mp hr
  rw [(h.priced r.uid).rank] at hget
  obtain ⟨b, hb, hbp⟩ := Option.map_eq_some_iff.mp hget
  exact ⟨b, hb, hbp, ((h.housed r.uid).bundle b hb).1⟩

theorem Sound.snapshot_ranks (h : e.Sound) :
    (e.snapshot.map fun row => (⟨row.priority, row.uid⟩ : Rank)) = e.index.ranks := by
  have key : ∀ rs : List Rank, (∀ r ∈ rs, r ∈ e.index.ranks) →
      ((rs.filterMap fun r => (e.bundles.get? r.uid).map Bundle.row).map
        fun row => (⟨row.priority, row.uid⟩ : Rank)) = rs := by
    intro rs
    induction rs with
    | nil => exact fun _ => rfl
    | cons r rs ih =>
      intro hrs
      obtain ⟨b, hb, hp, hu⟩ := h.row_of_mem_ranks (hrs r (List.mem_cons_self ..))
      have ih := ih fun s hs => hrs s (List.mem_cons_of_mem _ hs)
      rw [List.filterMap_cons, hb]
      simp only [Option.map_some, List.map_cons, ih, hp, hu]
  exact key e.index.ranks fun _ hr => hr

theorem Sound.mem_snapshot_iff (h : e.Sound) {row : BundleRow} :
    row ∈ e.snapshot ↔ ∃ uid b, e.bundles.get? uid = some b ∧ row = b.row := by
  unfold snapshot
  rw [List.mem_filterMap]
  constructor
  · rintro ⟨r, -, hrow⟩
    obtain ⟨b, hb, hbr⟩ := Option.map_eq_some_iff.mp hrow
    exact ⟨r.uid, b, hb, hbr.symm⟩
  · rintro ⟨uid, b, hb, rfl⟩
    have hrank := (h.priced uid).rank
    rw [hb] at hrank
    exact ⟨⟨b.priority, uid⟩, (h.coherent ⟨b.priority, uid⟩).mpr hrank, by rw [hb]; rfl⟩

theorem Sound.snapshot_pairwise (h : e.Sound) : e.snapshot.Pairwise fun a b =>
    a.priority < b.priority ∨ a.priority = b.priority ∧ a.uid < b.uid := by
  have hasc := e.index.ranks_ascending
  rw [← h.snapshot_ranks] at hasc
  exact List.pairwise_map.mp hasc

theorem Sound.snapshot_uids_nodup (h : e.Sound) : (e.snapshot.map BundleRow.uid).Nodup := by
  have hperm := h.coherent.uids_perm
  rw [← h.snapshot_ranks, List.map_map] at hperm
  exact hperm.symm.nodup e.index.byUid.keys_nodup

end Engine

end MemoryArbiter
