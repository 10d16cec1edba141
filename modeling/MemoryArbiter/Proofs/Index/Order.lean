import MemoryArbiter.Proofs.Index.Coherence
import Mathlib.Data.List.Sort

/-! # The order of some uids

The order in which an index has some uids follows from their priorities.  It is the same in two
indexes if all of these priorities differ by the same amount.
-/

namespace MemoryArbiter

def Rank.shift (d : Int) (r : Rank) : Rank := ⟨r.priority + d, r.uid⟩

theorem Rank.shift_lt_shift {r s : Rank} (d : Int) (h : r < s) : r.shift d < s.shift d := by
  rw [Rank.lt_iff] at h ⊢
  simp only [shift]
  omega

namespace Index

/-- The uids that `keep` selects, most important first. -/
def orderOf (i : Index) (keep : Int → Bool) : List Int := (i.ranks.map Rank.uid).filter keep

theorem ranks_ext {rs ss : List Rank} (hr : rs.Pairwise (· < ·)) (hs : ss.Pairwise (· < ·))
    (h : ∀ r, r ∈ rs ↔ r ∈ ss) : rs = ss := by
  have hirrefl : Std.Irrefl fun r s : Rank => r < s := ⟨Key.irrefl⟩
  have hantisymm : Std.Antisymm fun r s : Rank => r < s :=
    ⟨fun _ _ hrs hsr => absurd hsr (Key.not_lt_of_lt hrs)⟩
  exact List.Pairwise.eq_of_mem_iff hr hs h

theorem Coherent.orderOf_eq {i j : Index} (hi : i.Coherent) (hj : j.Coherent) {keep : Int → Bool}
    (d : Int) (h : ∀ uid, keep uid = true → j.get? uid = (i.get? uid).map (· + d)) :
    j.orderOf keep = i.orderOf keep := by
  -- the ranks of the one, moved by `d`, are those of the other
  have hranks : j.ranks.filter (fun r => keep r.uid) =
      (i.ranks.filter fun r => keep r.uid).map (Rank.shift d) := by
    refine ranks_ext (j.ranks_ascending.filter _) ?_ fun r => ?_
    · exact List.pairwise_map.mpr ((i.ranks_ascending.filter _).imp (Rank.shift_lt_shift d))
    · simp only [List.mem_map, List.mem_filter]
      constructor
      · rintro ⟨hr, hkeep⟩
        have hget := (hj r).mp hr
        rw [h r.uid hkeep, Option.map_eq_some_iff] at hget
        obtain ⟨n, hn, hd⟩ := hget
        refine ⟨⟨n, r.uid⟩, ⟨(hi _).mpr hn, hkeep⟩, ?_⟩
        unfold Rank.shift
        rw [hd]
      · rintro ⟨s, ⟨hs, hkeep⟩, rfl⟩
        refine ⟨(hj _).mpr ((h s.uid hkeep).trans ?_), hkeep⟩
        rw [(hi s).mp hs]
        rfl
  unfold orderOf
  rw [List.filter_map, List.filter_map]
  have hmap := congrArg (List.map Rank.uid) hranks
  rw [List.map_map] at hmap
  exact hmap

end Index

end MemoryArbiter
