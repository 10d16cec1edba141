import MemoryArbiter.Engine.Upkeep
import MemoryArbiter.Proofs.Engine.Sound

/-! # Recomputing priorities

Both ways of recomputing, that of one process with its bundle and that of a whole bundle, change the
processes of one uid first and end with `Engine.updateBundle`.  After that the uid is priced, and
nothing else has changed.
-/

namespace MemoryArbiter

theorem Table.get?_foldl_adjust {κ β : Type} [Key κ] (f : β → β) (hf : ∀ v, f (f v) = f v)
    (ks : List κ) (t : Table κ β) (k : κ) :
    (ks.foldl (fun t k => t.adjust k f) t).get? k =
      if k ∈ ks then (t.get? k).map f else t.get? k := by
  induction ks generalizing t with
  | nil => simp
  | cons j ks ih =>
    rw [List.foldl_cons, ih, Table.get?_adjust]
    by_cases hj : j = k
    · subst hj
      have hff : (t.get? j).map (f ∘ f) = (t.get? j).map f := by
        congr 1
        funext v
        exact hf v
      by_cases hm : j ∈ ks <;> simp [hm, hff]
    · by_cases hm : k ∈ ks <;> simp [hm, hj, Ne.symm hj]

namespace Engine

variable {e : Engine} {uid : Int} {b : Bundle}

/-! ### The processes of a bundle -/

theorem mem_members {p : TrackedProcess} :
    p ∈ e.members b ↔ ∃ pid, pid ∈ b.pids ∧ e.processes.get? pid = some p := by
  unfold members
  rw [List.mem_filterMap]
  simp only [IdSet.mem_toList]

theorem HousedAt.mem_members_iff (hh : e.HousedAt uid) (hb : e.bundles.get? uid = some b)
    {p : TrackedProcess} : p ∈ e.members b ↔ ∃ pid, e.processes.get? pid = some p ∧ p.uid = uid := by
  obtain ⟨-, -, -, hpids⟩ := hh.bundle b hb
  rw [mem_members]
  constructor
  · rintro ⟨pid, hpid, hp⟩
    obtain ⟨q, hq, hu⟩ := (hpids pid).mp hpid
    have hpq : q = p := Option.some.inj (hq.symm.trans hp)
    exact ⟨pid, hp, hpq ▸ hu⟩
  · rintro ⟨pid, hp, hu⟩
    exact ⟨pid, (hpids pid).mpr ⟨p, hp, hu⟩, hp⟩

theorem HousedAt.exists_member (hh : e.HousedAt uid) (hb : e.bundles.get? uid = some b) :
    ∃ pid p, e.processes.get? pid = some p ∧ p.uid = uid := by
  obtain ⟨-, -, ⟨pid, hpid⟩, hpids⟩ := hh.bundle b hb
  obtain ⟨p, hp, hu⟩ := (hpids pid).mp hpid
  exact ⟨pid, p, hp, hu⟩

theorem HousedAt.min?_eq_some_iff (hh : e.HousedAt uid) (hb : e.bundles.get? uid = some b) (m : Int) :
    ((e.members b).map TrackedProcess.priority).min? = some m ↔ e.Least uid m := by
  rw [List.min?_eq_some_iff, List.mem_map]
  constructor
  · rintro ⟨⟨p, hp, hpm⟩, hle⟩
    obtain ⟨pid, hget, hu⟩ := (hh.mem_members_iff hb).mp hp
    refine ⟨⟨pid, p, hget, hu, hpm⟩, ?_⟩
    intro qid q hq hv
    exact hle q.priority (List.mem_map_of_mem ((hh.mem_members_iff hb).mpr ⟨qid, hq, hv⟩))
  · rintro ⟨⟨pid, p, hget, hu, hpm⟩, hle⟩
    refine ⟨⟨p, (hh.mem_members_iff hb).mpr ⟨pid, hget, hu⟩, hpm⟩, ?_⟩
    intro c hc
    obtain ⟨q, hq, rfl⟩ := List.mem_map.mp hc
    obtain ⟨qid, hqget, hv⟩ := (hh.mem_members_iff hb).mp hq
    exact hle qid q hqget hv

theorem HousedAt.least_bundlePriority (hh : e.HousedAt uid) (hb : e.bundles.get? uid = some b)
    (hdue : ∀ pid p, e.processes.get? pid = some p → p.uid = uid → p.priority = e.due b p) :
    e.Least uid (e.bundlePriority b) := by
  obtain ⟨pid, p, hp, hu⟩ := hh.exists_member hb
  unfold bundlePriority
  by_cases hpin : b.pinned = true
  · have hsys : ∀ qid q, e.processes.get? qid = some q → q.uid = uid → q.priority = Level.system := by
      intro qid q hq hv
      rw [hdue qid q hq hv]
      simp [due, hpin]
    rw [if_pos hpin]
    exact ⟨⟨pid, p, hp, hu, hsys pid p hp hu⟩, fun qid q hq hv => Int.le_of_eq (hsys qid q hq hv).symm⟩
  · rw [if_neg hpin]
    have hmem : p ∈ e.members b := (hh.mem_members_iff hb).mpr ⟨pid, hp, hu⟩
    cases hmin : ((e.members b).map TrackedProcess.priority).min? with
    | none =>
      have hnil := List.min?_eq_none_iff.mp hmin
      rw [List.map_eq_nil_iff] at hnil
      rw [hnil] at hmem
      cases hmem
    | some m => exact (hh.min?_eq_some_iff hb m).mp hmin

/-! ### The priority that is due -/

theorem Enrolled.offsetOf_eq (he : e.Enrolled) (hb : e.bundles.get? uid = some b) :
    e.offsetOf (accountOf uid) = e.dueOffset (accountOf uid) := by
  have hsome : (e.bundles.get? uid).isSome = true := by rw [hb]; rfl
  obtain ⟨a, ha, -⟩ := (he.lists (accountOf uid) uid).mpr ⟨rfl, hsome⟩
  obtain ⟨-, hcur, -, hshift⟩ := he.record _ a ha
  unfold offsetOf dueOffset
  rw [ha]
  simp only [Account.offset, Settings.offset, hcur, hshift, beq_iff_eq]

theorem Enrolled.priorityNow_eq (he : e.Enrolled) {p : TrackedProcess}
    (hb : e.bundles.get? p.uid = some b) : e.priorityNow p = e.due b p := by
  unfold priorityNow due
  rw [hb, he.offsetOf_eq hb]
  rfl

/-- `p` with its priority recomputed. -/
def repriced (e : Engine) (p : TrackedProcess) : TrackedProcess :=
  { p with priority := e.priorityNow p }

theorem repriced_repriced (p : TrackedProcess) : e.repriced (e.repriced p) = e.repriced p := rfl

theorem Enrolled.repriced_priority (he : e.Enrolled) {p : TrackedProcess}
    (hb : e.bundles.get? p.uid = some b) : (e.repriced p).priority = e.due b (e.repriced p) :=
  he.priorityNow_eq hb

/-! ### One bundle -/

theorem updateBundle_of_some (hb : e.bundles.get? uid = some b) : e.updateBundle uid =
    { e with
      bundles := e.bundles.insert uid { b with priority := e.bundlePriority b }
      index := e.index.insert uid (e.bundlePriority b) } := by
  unfold updateBundle
  rw [hb]

theorem updateBundle_of_none (hb : e.bundles.get? uid = none) : e.updateBundle uid = e := by
  unfold updateBundle
  rw [hb]

theorem updateBundle_processes : (e.updateBundle uid).processes = e.processes := by
  unfold updateBundle
  split <;> rfl

theorem updateBundle_lastToken : (e.updateBundle uid).lastToken = e.lastToken := by
  unfold updateBundle
  split <;> rfl

theorem updateBundle_accounts : (e.updateBundle uid).accounts = e.accounts := by
  unfold updateBundle
  split <;> rfl

theorem updateBundle_terms : e.SameTerms (e.updateBundle uid) := by
  unfold updateBundle
  split <;> exact ⟨rfl, rfl, rfl⟩

theorem updateBundle_isSome (u : Int) :
    ((e.updateBundle uid).bundles.get? u).isSome = (e.bundles.get? u).isSome := by
  cases hb : e.bundles.get? uid with
  | none => rw [updateBundle_of_none hb]
  | some b =>
    rw [updateBundle_of_some hb]
    by_cases hu : uid = u
    · subst hu
      simp [hb]
    · simp [Table.get?_insert, hu]

theorem updateBundle_agreeAt {u : Int} (hu : u ≠ uid) : e.AgreeAt (e.updateBundle uid) u := by
  cases hb : e.bundles.get? uid with
  | none =>
    rw [updateBundle_of_none hb]
    exact AgreeAt.refl e u
  | some b =>
    rw [updateBundle_of_some hb]
    refine ⟨fun _ _ _ => Iff.rfl, ?_, ?_⟩
    · simp [Table.get?_insert, Ne.symm hu]
    · simp [Index.get?_insert, Ne.symm hu]

theorem HousedAt.updateBundle (hh : e.HousedAt uid) : (e.updateBundle uid).HousedAt uid := by
  cases hb : e.bundles.get? uid with
  | none =>
    rw [updateBundle_of_none hb]
    exact hh
  | some b =>
    rw [updateBundle_of_some hb]
    refine ⟨fun pid p hp hu => ⟨(hh.process pid p hp hu).1, ?_⟩, ?_⟩
    · simp
    · intro c hc
      simp only [Table.get?_insert_self, Option.some.injEq] at hc
      subst hc
      exact hh.bundle b hb

theorem HousedAt.pricedAt_updateBundle (hh : e.HousedAt uid) (hb : e.bundles.get? uid = some b)
    (hdue : ∀ pid p, e.processes.get? pid = some p → p.uid = uid → p.priority = e.due b p) :
    (e.updateBundle uid).PricedAt uid := by
  have hleast := hh.least_bundlePriority hb hdue
  rw [updateBundle_of_some hb]
  refine ⟨?_, ?_, ?_⟩
  · intro pid p c hp hu hc
    simp only [Table.get?_insert_self, Option.some.injEq] at hc
    subst hc
    exact hdue pid p hp hu
  · intro c hc
    simp only [Table.get?_insert_self, Option.some.injEq] at hc
    subst hc
    exact ⟨hleast.attained, hleast.le⟩
  · simp [Index.get?_insert]

theorem Enrolled.updateBundle (he : e.Enrolled) : (e.updateBundle uid).Enrolled :=
  he.frame updateBundle_terms updateBundle_accounts updateBundle_isSome

theorem coherent_updateBundle (h : e.index.Coherent) : (e.updateBundle uid).index.Coherent := by
  unfold Engine.updateBundle
  split
  · exact h.insert _ _
  · exact h

/-! ### One process and its bundle -/

theorem updateProcess_eq (pid : Int) : e.updateProcess pid =
    { e with processes := e.processes.adjust pid e.repriced } := by
  unfold updateProcess Table.adjust
  cases h : e.processes.get? pid <;> rfl

theorem putProcess_eq (p : TrackedProcess) : e.putProcess p =
    { e with processes := e.processes.insert p.pid (e.repriced p) }.updateBundle p.uid := by
  show ({ e with processes := e.processes.insert p.pid p }.updateProcess p.pid).updateBundle p.uid = _
  rw [updateProcess_eq]
  simp only [Table.adjust_insert_self]
  rfl

/-! ### All processes of a bundle -/

theorem foldl_updateProcess (pids : List Int) (e : Engine) : pids.foldl updateProcess e =
    { e with processes := pids.foldl (fun t pid => t.adjust pid e.repriced) e.processes } := by
  induction pids generalizing e with
  | nil => rfl
  | cons pid pids ih =>
    rw [List.foldl_cons, List.foldl_cons, ih, updateProcess_eq]
    rfl

/-- `e` with the priorities of the processes of `b` recomputed. -/
def repricedIn (e : Engine) (b : Bundle) : Engine :=
  { e with processes := b.pids.toList.foldl (fun t pid => t.adjust pid e.repriced) e.processes }

theorem updateMembers_of_some (hb : e.bundles.get? uid = some b) :
    e.updateMembers uid = (e.repricedIn b).updateBundle uid := by
  unfold updateMembers
  simp only [hb, Option.map_some, Option.getD_some]
  rw [foldl_updateProcess]
  rfl

theorem updateMembers_of_none (hb : e.bundles.get? uid = none) : e.updateMembers uid = e := by
  unfold updateMembers
  simp only [hb, Option.map_none, Option.getD_none, List.foldl_nil]
  exact updateBundle_of_none hb

theorem HousedAt.repricedIn_get? (hh : e.HousedAt uid) (hb : e.bundles.get? uid = some b)
    (pid : Int) : (e.repricedIn b).processes.get? pid =
      (e.processes.get? pid).map fun p => if p.uid = uid then e.repriced p else p := by
  obtain ⟨-, -, -, hpids⟩ := hh.bundle b hb
  unfold repricedIn
  rw [Table.get?_foldl_adjust e.repriced repriced_repriced]
  cases hp : e.processes.get? pid with
  | none => simp
  | some p =>
    have htr : pid ∈ b.pids.toList ↔ p.uid = uid := by
      rw [IdSet.mem_toList, hpids pid]
      constructor
      · rintro ⟨q, hq, hu⟩
        rw [Option.some.inj (hp.symm.trans hq)]
        exact hu
      · exact fun hu => ⟨p, hp, hu⟩
    by_cases hu : p.uid = uid <;> simp [htr, hu]

theorem HousedAt.repricedIn_eq_some (hh : e.HousedAt uid) (hb : e.bundles.get? uid = some b)
    {pid : Int} {p : TrackedProcess} (hp : (e.repricedIn b).processes.get? pid = some p) :
    ∃ q, e.processes.get? pid = some q ∧ p = if q.uid = uid then e.repriced q else q := by
  rw [hh.repricedIn_get? hb, Option.map_eq_some_iff] at hp
  obtain ⟨q, hq, hqp⟩ := hp
  exact ⟨q, hq, hqp.symm⟩

end Engine

end MemoryArbiter
