import MemoryArbiter.Index

/-! # Coherence of the index

The two views of an index describe one finite map: a rank is listed exactly if its uid is looked up
at its priority.  Both operations keep this, and it is all that `Index.agrees` checks.
-/

namespace MemoryArbiter

namespace Index

/-- The ranks are the pairs of the look-up. -/
def Coherent (i : Index) : Prop := ∀ r : Rank, r ∈ i.ranks ↔ i.get? r.uid = some r.priority

theorem mem_ranks {i : Index} {r : Rank} : r ∈ i.ranks ↔ i.byRank.get? r = some () := by
  rw [ranks, Table.mem_keys, Option.isSome_iff_exists]
  exact ⟨fun ⟨(), h⟩ => h, fun h => ⟨(), h⟩⟩

theorem ranks_nodup (i : Index) : i.ranks.Nodup := i.byRank.keys_nodup

theorem ranks_ascending (i : Index) : i.ranks.Pairwise (· < ·) := i.byRank.keys_ascending

/-! ### Look-ups -/

theorem get?_insert (i : Index) (uid priority u : Int) :
    (i.insert uid priority).get? u = if uid = u then some priority else i.get? u :=
  Table.get?_insert i.byUid uid u priority

theorem get?_take (i : Index) (uid u : Int) :
    (i.take uid).1.get? u = if uid = u then none else i.get? u := by
  unfold take
  cases h : i.get? uid with
  | none =>
    by_cases hu : uid = u
    · subst hu
      simpa using h
    · simp [hu]
  | some old => exact Table.get?_erase i.byUid uid u

/-! ### Both operations keep coherence -/

theorem coherent_empty : empty.Coherent := by
  intro r
  rw [mem_ranks]
  constructor <;> intro h <;> cases h

/-- The ranks of the other uids are those that are left when the rank of `uid` is taken out. -/
theorem Coherent.byRank_others {i : Index} (h : i.Coherent) (uid : Int) (r : Rank) :
    (match i.get? uid with
      | some old => i.byRank.erase ⟨old, uid⟩
      | none => i.byRank).get? r = some () ↔ r.uid ≠ uid ∧ i.get? r.uid = some r.priority := by
  have hr := h r
  rw [mem_ranks] at hr
  cases hu : i.get? uid with
  | none =>
    simp only [hr]
    constructor
    · intro hg
      refine ⟨?_, hg⟩
      intro he
      rw [he, hu] at hg
      exact nomatch hg
    · exact fun hg => hg.2
  | some old =>
    simp only [Table.get?_erase]
    by_cases he : (⟨old, uid⟩ : Rank) = r
    · subst he
      simp
    · simp only [he, if_false, hr]
      constructor
      · intro hg
        refine ⟨fun hru => he ?_, hg⟩
        rw [hru, hu] at hg
        have hp : old = r.priority := Option.some.inj hg
        cases r
        simp_all
      · exact fun hg => hg.2

theorem Coherent.insert {i : Index} (h : i.Coherent) (uid priority : Int) :
    (i.insert uid priority).Coherent := by
  intro r
  rw [mem_ranks, get?_insert]
  have hins : (i.insert uid priority).byRank.get? r =
      if (⟨priority, uid⟩ : Rank) = r then some ()
      else (match i.get? uid with
        | some old => i.byRank.erase ⟨old, uid⟩
        | none => i.byRank).get? r := Table.get?_insert _ _ _ _
  rw [hins]
  by_cases he : (⟨priority, uid⟩ : Rank) = r
  · subst he
    simp
  · rw [if_neg he, h.byRank_others uid r]
    by_cases hu : uid = r.uid
    · have hp : priority ≠ r.priority := by
        intro hp
        apply he
        cases r
        simp_all
      simp [hu, hp]
    · simp [hu, Ne.symm hu]

theorem Coherent.take {i : Index} (h : i.Coherent) (uid : Int) : (i.take uid).1.Coherent := by
  intro r
  have hothers := h.byRank_others uid r
  rw [mem_ranks, get?_take]
  have htake : (i.take uid).1.byRank.get? r =
      (match i.get? uid with
        | some old => i.byRank.erase ⟨old, uid⟩
        | none => i.byRank).get? r := by
    unfold Index.take
    cases i.get? uid <;> rfl
  rw [htake, hothers]
  by_cases hu : uid = r.uid
  · simp [hu]
  · simp [hu, Ne.symm hu]

/-! ### What coherence gives -/

theorem Coherent.ext {i j : Index} (hi : i.Coherent) (hj : j.Coherent)
    (h : ∀ uid, i.get? uid = j.get? uid) : i = j := by
  have huid : i.byUid = j.byUid := Table.ext_get? h
  have hrank : i.byRank = j.byRank := by
    apply Table.ext_get?
    intro r
    have hsame : i.byRank.get? r = some () ↔ j.byRank.get? r = some () := by
      rw [← mem_ranks, ← mem_ranks, hi r, hj r, h r.uid]
    cases hr : i.byRank.get? r with
    | some u => exact (hsame.mp hr).symm
    | none =>
      refine (Option.eq_none_iff_forall_ne_some.mpr fun u hu => ?_).symm
      exact nomatch hr.symm.trans (hsame.mpr hu)
  cases i
  cases j
  simp_all

theorem Coherent.uids_perm {i : Index} (h : i.Coherent) :
    (i.ranks.map Rank.uid).Perm i.byUid.keys := by
  have hnd : (i.ranks.map Rank.uid).Nodup := by
    refine List.pairwise_map.mpr (i.ranks_nodup.imp_of_mem ?_)
    intro a b ha hb hne he
    apply hne
    have hpa := (h a).mp ha
    have hpb := (h b).mp hb
    rw [he, hpb] at hpa
    have hp : b.priority = a.priority := Option.some.inj hpa
    cases a
    cases b
    simp_all
  refine (List.perm_ext_iff_of_nodup hnd i.byUid.keys_nodup).mpr ?_
  intro u
  rw [Table.mem_keys, Option.isSome_iff_exists, List.mem_map]
  constructor
  · rintro ⟨r, hr, rfl⟩
    exact ⟨r.priority, (h r).mp hr⟩
  · rintro ⟨p, hp⟩
    exact ⟨⟨p, u⟩, (h ⟨p, u⟩).mpr hp, rfl⟩

theorem Coherent.size_eq {i : Index} (h : i.Coherent) : i.size = i.byUid.size := by
  have hlen := h.uids_perm.length_eq
  rw [List.length_map] at hlen
  rw [size, Table.size_eq_length_keys, Table.size_eq_length_keys]
  exact hlen

theorem Coherent.agrees {i : Index} (h : i.Coherent) : i.agrees = true := by
  have hsize : i.byRank.size = i.byUid.size := h.size_eq
  unfold Index.agrees
  rw [hsize]
  simp only [beq_self_eq_true, Bool.true_and, List.all_eq_true, beq_iff_eq]
  exact fun r hr => (h r).mp hr

end Index

end MemoryArbiter
