import MemoryArbiter.Engine.Consistency
import MemoryArbiter.Proofs.Engine.Soundness

/-! # The hierarchy is a partition

In a sound engine every process belongs to one bundle, every bundle to one account and one place of
the index, and no bundle or account is empty.  The self-check of the engine finds nothing wrong.
-/

namespace MemoryArbiter

namespace Engine

variable {e : Engine}

/-- Who owns what, table by table. -/
structure Partitioned (e : Engine) : Prop where
  /-- A tracked process is listed by one bundle, that of its uid. -/
  process : ∀ pid p, e.processes.get? pid = some p → p.pid = pid ∧
    ∀ uid, (∃ b, e.bundles.get? uid = some b ∧ pid ∈ b.pids) ↔ uid = p.uid
  /-- A bundle has processes, all of them tracked, and is listed by one account, that of its uid. -/
  bundle : ∀ uid b, e.bundles.get? uid = some b → b.uid = uid ∧ b.account = accountOf uid ∧
    (∃ pid, pid ∈ b.pids) ∧ (∀ pid, pid ∈ b.pids → ∃ p, e.processes.get? pid = some p) ∧
    ∀ id, (∃ a, e.accounts.get? id = some a ∧ uid ∈ a.uids) ↔ id = accountOf uid
  /-- An account has bundles, and all that it lists are live. -/
  account : ∀ id a, e.accounts.get? id = some a → a.id = id ∧ (∃ uid, uid ∈ a.uids) ∧
    ∀ uid, uid ∈ a.uids → ∃ b, e.bundles.get? uid = some b
  /-- The index holds each live bundle once, at its priority, in both of its views. -/
  rank : e.index.ranks.Nodup ∧
    (∀ r : Rank, r ∈ e.index.ranks ↔ ∃ b, e.bundles.get? r.uid = some b ∧ b.priority = r.priority) ∧
    ∀ uid, e.index.get? uid = (e.bundles.get? uid).map Bundle.priority
  /-- The priority of a bundle is the least of its processes. -/
  least : ∀ uid b, e.bundles.get? uid = some b →
    ((e.members b).map TrackedProcess.priority).min? = some b.priority

/-! ### A sound engine is partitioned -/

theorem Sound.mem_ranks_iff (h : e.Sound) (r : Rank) :
    r ∈ e.index.ranks ↔ ∃ b, e.bundles.get? r.uid = some b ∧ b.priority = r.priority := by
  rw [h.coherent r, (h.priced r.uid).rank]
  exact Option.map_eq_some_iff

theorem Sound.lists_iff (h : e.Sound) {uid : Int} {b : Bundle} (hb : e.bundles.get? uid = some b)
    (id : Int) : e.Lists id uid ↔ id = accountOf uid := by
  rw [h.enrolled.lists id uid, hb]
  exact ⟨fun hl => hl.1.symm, fun hid => ⟨hid.symm, rfl⟩⟩

theorem Sound.partitioned (h : e.Sound) : e.Partitioned := by
  refine ⟨?_, ?_, ?_,
    ⟨e.index.ranks_nodup, h.mem_ranks_iff, fun uid => (h.priced uid).rank⟩, ?_⟩
  · intro pid p hp
    obtain ⟨hpid, b, hb⟩ := (h.housed p.uid).process pid p hp rfl
    refine ⟨hpid, fun uid => ⟨?_, ?_⟩⟩
    · rintro ⟨c, hc, hmem⟩
      obtain ⟨-, -, -, hpids⟩ := (h.housed uid).bundle c hc
      obtain ⟨q, hq, hu⟩ := (hpids pid).mp hmem
      rw [← hu, Option.some.inj (hq.symm.trans hp)]
    · rintro rfl
      obtain ⟨-, -, -, hpids⟩ := (h.housed p.uid).bundle b hb
      exact ⟨b, hb, (hpids pid).mpr ⟨p, hp, rfl⟩⟩
  · intro uid b hb
    obtain ⟨hbu, hacc, hne, hpids⟩ := (h.housed uid).bundle b hb
    refine ⟨hbu, hacc, hne, ?_, h.lists_iff hb⟩
    intro pid hpid
    obtain ⟨p, hp, -⟩ := (hpids pid).mp hpid
    exact ⟨p, hp⟩
  · intro id a ha
    refine ⟨(h.enrolled.record id a ha).1, h.enrolled.occupied id a ha, ?_⟩
    intro uid hu
    exact Option.isSome_iff_exists.mp ((h.enrolled.lists id uid).mp ⟨a, ha, hu⟩).2
  · intro uid b hb
    exact ((h.housed uid).min?_eq_some_iff hb b.priority).mpr ((h.priced uid).bundle b hb)

/-! ### The self-check -/

theorem memberPriorities_eq_ok {uid : Int} {pids : List Int}
    (h : ∀ pid ∈ pids, ∃ p, e.processes.get? pid = some p ∧ p.uid = uid) :
    e.memberPriorities uid pids =
      .ok ((pids.filterMap e.processes.get?).map TrackedProcess.priority) := by
  induction pids with
  | nil => rfl
  | cons pid pids ih =>
    obtain ⟨p, hp, hu⟩ := h pid (List.mem_cons_self ..)
    have ih := ih fun qid hq => h qid (List.mem_cons_of_mem _ hq)
    unfold memberPriorities
    rw [hp, ih]
    simp [Option.filter_some, hu, hp, Except.map]

theorem Sound.bundleDefect?_eq_none (h : e.Sound) {uid : Int} {b : Bundle}
    (hb : e.bundles.get? uid = some b) : e.bundleDefect? b = none := by
  obtain ⟨hbu, hacc, -, hpids⟩ := (h.housed uid).bundle b hb
  have hrank : e.index.get? b.uid = some b.priority := by
    rw [hbu, (h.priced uid).rank, hb]
    rfl
  have hacc' : b.account = accountOf b.uid := by
    rw [hbu]
    exact hacc
  have hmembers : e.memberPriorities b.uid b.pids.toList =
      .ok ((e.members b).map TrackedProcess.priority) := by
    refine memberPriorities_eq_ok ?_
    intro pid hpid
    rw [hbu]
    exact (hpids pid).mp (IdSet.mem_toList.mp hpid)
  have hmin := ((h.housed uid).min?_eq_some_iff hb b.priority).mpr ((h.priced uid).bundle b hb)
  obtain ⟨a, ha, hlisted⟩ := (h.lists_iff hb (accountOf uid)).mpr rfl
  unfold bundleDefect?
  rw [if_neg (fun hne => hne hrank), if_neg (fun hne => hne hacc'), hmembers]
  simp only [hmin]
  rw [if_neg (fun hne => hne rfl), hacc, ha, hbu]
  simp [hlisted]

theorem Sound.processDefect?_eq_none (h : e.Sound) {pid : Int} {p : TrackedProcess}
    (hp : e.processes.get? pid = some p) : e.processDefect? p = none := by
  obtain ⟨hpid, b, hb⟩ := (h.housed p.uid).process pid p hp rfl
  obtain ⟨-, -, -, hpids⟩ := (h.housed p.uid).bundle b hb
  have hmem : p.pid ∈ b.pids := by
    rw [hpid]
    exact (hpids pid).mpr ⟨p, hp, rfl⟩
  unfold processDefect?
  rw [hb]
  simp [hmem]

theorem Sound.accountDefect?_eq_none (h : e.Sound) {id : Int} {a : Account}
    (ha : e.accounts.get? id = some a) : e.accountDefect? a = none := by
  obtain ⟨uid, huid⟩ := h.enrolled.occupied id a ha
  have hne : ¬ a.uids.isEmpty = true := fun hempty => IdSet.isEmpty_iff.mp hempty uid huid
  have hlive : ¬ (a.uids.toList.any fun u => !e.bundles.contains u) = true := by
    intro hany
    obtain ⟨u, hu, hgone⟩ := List.any_eq_true.mp hany
    have hsome := ((h.enrolled.lists id u).mp ⟨a, ha, IdSet.mem_toList.mp hu⟩).2
    simp [Table.contains, hsome] at hgone
  unfold accountDefect?
  rw [if_neg hne, if_neg hlive]

theorem Sound.index_size (h : e.Sound) : e.index.size = e.bundles.size := by
  have hkeys : e.index.byUid.keys = e.bundles.keys := by
    refine Table.keys_eq_of_isSome ?_
    intro uid
    have hrank := (h.priced uid).rank
    unfold Index.get? at hrank
    rw [hrank, Option.isSome_map]
  rw [h.coherent.size_eq, Table.size_eq_length_keys, Table.size_eq_length_keys, hkeys]

theorem Sound.defect?_eq_none (h : e.Sound) : e.defect? = none := by
  have hindex : ¬ (!e.index.agrees || e.index.size != e.bundles.size) = true := by
    rw [h.coherent.agrees, h.index_size]
    simp
  have hbundles : e.bundles.values.findSome? e.bundleDefect? = none := by
    refine List.findSome?_eq_none_iff.mpr ?_
    intro b hb
    obtain ⟨uid, hget⟩ := Table.mem_values.mp hb
    exact h.bundleDefect?_eq_none hget
  have hprocesses : e.processes.values.findSome? e.processDefect? = none := by
    refine List.findSome?_eq_none_iff.mpr ?_
    intro p hp
    obtain ⟨pid, hget⟩ := Table.mem_values.mp hp
    exact h.processDefect?_eq_none hget
  have haccounts : e.accounts.values.findSome? e.accountDefect? = none := by
    refine List.findSome?_eq_none_iff.mpr ?_
    intro a ha
    obtain ⟨id, hget⟩ := Table.mem_values.mp ha
    exact h.accountDefect?_eq_none hget
  unfold defect?
  rw [if_neg hindex, hbundles, hprocesses, haccounts]
  rfl

/-! ### Every run -/

/-- Whatever is asked of an engine, the self-check finds nothing wrong afterwards, and the ownership
is a partition. -/
theorem run_partitioned (settings : Settings) (requests : List Request) :
    (run settings requests).defect? = none ∧ (run settings requests).Partitioned := by
  have h := run_sound settings requests
  exact ⟨h.defect?_eq_none, h.partitioned⟩

end Engine

end MemoryArbiter
