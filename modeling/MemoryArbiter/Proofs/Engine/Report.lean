import MemoryArbiter.Proofs.Engine.Reporting
import Mathlib.Data.List.Nodup

/-! # What a report tells

The changes of a report are the difference between the bundles before the step and after it, one for
each uid that differs, in ascending order.  Its score writes go to processes that are tracked after
the step, each at most once; a process that gets none was in its bundle before, and the bundle has not
moved.
-/

namespace MemoryArbiter

def StepReport.writes (r : StepReport) : List (Int × Int) := r.effects.filterMap Effect.write?

namespace Engine

variable {e₀ e e' : Engine} {uid pid : Int} {b : Bundle} {j : Journal}

/-! ### Changes -/

/-- How the bundle of `uid` has changed from `e` to `e'`, if its priority has. -/
def changeTo (e e' : Engine) (uid : Int) : Option Change :=
  match e.standing? uid, e'.standing? uid with
  | none, none => none
  | some s, none => some ⟨uid, s.name, s.account, some s.priority, none⟩
  | former, some s =>
    if former.map Standing.priority = some s.priority then none
    else some ⟨uid, s.name, s.account, former.map Standing.priority, some s.priority⟩

theorem changeTo_uid {c : Change} (h : e.changeTo e' uid = some c) : c.uid = uid := by
  unfold changeTo at h
  split at h
  · cases h
  · cases h
    rfl
  · split at h
    · cases h
    · cases h
      rfl

theorem changeTo_of_eq (h : e'.standing? uid = e.standing? uid) : e.changeTo e' uid = none := by
  unfold changeTo
  rw [h]
  cases e.standing? uid <;> simp

theorem NotedAt.changeOf_eq (h : NotedAt e₀ e j uid) {f : Former}
    (hf : j.former.get? uid = some f) : e.changeOf uid f = e₀.changeTo e uid := by
  obtain ⟨hold, hkept⟩ := h.former f hf
  unfold changeOf changeTo
  rw [← hold]
  cases hb : e.bundles.get? uid with
  | none =>
    rw [standing?_of_none hb]
    cases f.old <;> rfl
  | some b =>
    obtain ⟨hname, hacc⟩ := hkept b.standing (standing?_of_some hb)
    rw [standing?_of_some hb]
    cases f.old <;> simp [Bundle.standing]

theorem NotedAt.changeTo_of_silent (h : NotedAt e₀ e j uid) (hnone : j.former.get? uid = none) :
    e₀.changeTo e uid = none :=
  changeTo_of_eq (h.silent hnone).1

theorem Noted.report_changes (h : Noted e₀ e j) :
    (e.report j).changes = j.former.keys.filterMap (e₀.changeTo e) := by
  unfold report Table.keys
  rw [List.filterMap_map]
  refine List.filterMap_congr ?_
  rintro ⟨uid, f⟩ hmem
  exact (h uid).changeOf_eq (Table.mem_entries.mp hmem)

theorem Noted.mem_changes (h : Noted e₀ e j) (c : Change) :
    c ∈ (e.report j).changes ↔ e₀.changeTo e c.uid = some c := by
  rw [h.report_changes, List.mem_filterMap]
  constructor
  · rintro ⟨uid, -, hc⟩
    rw [changeTo_uid hc]
    exact hc
  · intro hc
    refine ⟨c.uid, ?_, hc⟩
    rw [Table.mem_keys]
    cases hf : j.former.get? c.uid with
    | some f => rfl
    | none => exact nomatch ((h c.uid).changeTo_of_silent hf).symm.trans hc

theorem Noted.changes_ascending (h : Noted e₀ e j) :
    ((e.report j).changes.map Change.uid).Pairwise (· < ·) := by
  rw [h.report_changes, List.pairwise_map, List.pairwise_filterMap]
  refine j.former.keys_ascending.imp ?_
  intro u v huv c hc d hd
  rw [changeTo_uid hc, changeTo_uid hd]
  exact huv

/-! ### Score writes -/

theorem filterMap_write?_map (pids : List Int) (priority : Int) :
    (pids.map fun pid => Effect.writeScore pid priority).filterMap Effect.write? =
      pids.map fun pid => (pid, priority) := by
  induction pids with
  | nil => rfl
  | cons pid pids ih => simp [Effect.write?, ih]

/-- The processes that get a write for one recorded bundle. -/
def writtenPids (e : Engine) (newPids : List Int) (uid : Int) (before : Former) : List Int :=
  match e.bundles.get? uid with
  | some b => b.pids.toList.filter fun pid =>
    decide (before.old ≠ some b.priority) || newPids.contains pid
  | none => []

theorem writesOf_pids (e : Engine) (newPids : List Int) (uid : Int) (f : Former) :
    ((e.writesOf newPids uid f).filterMap Effect.write?).map Prod.fst =
      e.writtenPids newPids uid f := by
  unfold writesOf writtenPids
  cases e.bundles.get? uid with
  | none => rfl
  | some b =>
    simp only [filterMap_write?_map, List.map_map]
    exact List.map_id _

theorem mem_writesOf {newPids : List Int} {f : Former} {pid priority : Int} :
    (pid, priority) ∈ (e.writesOf newPids uid f).filterMap Effect.write? ↔
      ∃ b, e.bundles.get? uid = some b ∧ pid ∈ b.pids ∧ b.priority = priority ∧
        (f.old ≠ some b.priority ∨ pid ∈ newPids) := by
  unfold writesOf
  cases hb : e.bundles.get? uid with
  | none => simp
  | some b =>
    simp only [filterMap_write?_map, List.mem_map, List.mem_filter, IdSet.mem_toList,
      Prod.mk.injEq, Option.some.injEq]
    constructor
    · rintro ⟨q, ⟨hq, hmoved⟩, rfl, rfl⟩
      exact ⟨b, rfl, hq, rfl, by simpa using hmoved⟩
    · rintro ⟨c, rfl, hpid, rfl, hmoved⟩
      exact ⟨pid, ⟨hpid, by simpa using hmoved⟩, rfl, rfl⟩

theorem report_writes (e : Engine) (hj : j.TimersOnly) :
    (e.report j).writes = j.former.entries.flatMap fun x =>
      (e.writesOf j.newPids x.1 x.2).filterMap Effect.write? := by
  unfold StepReport.writes report
  rw [List.filterMap_append, List.filterMap_eq_nil_iff.mpr hj, List.nil_append,
    List.filterMap_flatMap]

theorem mem_report_writes (hj : j.TimersOnly) {pid priority : Int} :
    (pid, priority) ∈ (e.report j).writes ↔ ∃ uid f b, j.former.get? uid = some f ∧
      e.bundles.get? uid = some b ∧ pid ∈ b.pids ∧ b.priority = priority ∧
        (f.old ≠ some b.priority ∨ pid ∈ j.newPids) := by
  rw [report_writes e hj, List.mem_flatMap]
  constructor
  · rintro ⟨⟨uid, f⟩, hmem, hw⟩
    obtain ⟨b, hb, h⟩ := mem_writesOf.mp hw
    exact ⟨uid, f, b, Table.mem_entries.mp hmem, hb, h⟩
  · rintro ⟨uid, f, b, hf, hb, h⟩
    exact ⟨(uid, f), Table.mem_entries.mpr hf, mem_writesOf.mpr ⟨b, hb, h⟩⟩

theorem Sound.report_writes_nodup (h : e.Sound) (hj : j.TimersOnly) :
    ((e.report j).writes.map Prod.fst).Nodup := by
  rw [report_writes e hj, List.map_flatMap]
  simp only [writesOf_pids]
  have htracks : ∀ uid f pid, pid ∈ e.writtenPids j.newPids uid f → e.Tracks uid pid := by
    intro uid f pid hpid
    unfold writtenPids at hpid
    cases hb : e.bundles.get? uid with
    | none =>
      rw [hb] at hpid
      cases hpid
    | some b =>
      rw [hb] at hpid
      exact (h.mem_pids_iff hb).mp (IdSet.mem_toList.mp (List.mem_filter.mp hpid).1)
  refine List.nodup_flatMap.mpr ⟨?_, ?_⟩
  · rintro ⟨uid, f⟩ -
    unfold writtenPids
    split
    · exact (Table.keys_nodup _).filter _
    · exact List.nodup_nil
  · -- no process is in two bundles
    refine j.former.ascending.imp ?_
    rintro ⟨u, f⟩ ⟨v, g⟩ huv pid hu hv
    obtain ⟨p, hp, hpu⟩ := htracks u f pid hu
    obtain ⟨q, hq, hqv⟩ := htracks v g pid hv
    have huv' : u = v := by rw [← hpu, ← hqv, Option.some.inj (hp.symm.trans hq)]
    exact Key.ne_of_lt huv huv'

/-! ### The report of a step -/

/-- The report is true of the step from `e` to `e'`. -/
structure Tells (e e' : Engine) (report : StepReport) : Prop where
  ascending : (report.changes.map Change.uid).Pairwise (· < ·)
  mem_changes : ∀ c, c ∈ report.changes ↔ e.changeTo e' c.uid = some c
  stable : ∀ uid s s', e.standing? uid = some s → e'.standing? uid = some s' →
    s'.name = s.name ∧ s'.account = s.account
  once : (report.writes.map Prod.fst).Nodup
  mem_writes : ∀ pid priority, (pid, priority) ∈ report.writes → ∃ uid b,
    e'.bundles.get? uid = some b ∧ e'.Tracks uid pid ∧ b.priority = priority
  unwritten : ∀ uid pid b', e'.bundles.get? uid = some b' → e'.Tracks uid pid →
    pid ∉ report.writes.map Prod.fst →
    e.Tracks uid pid ∧ (e.standing? uid).map Standing.priority = some b'.priority

theorem Tells.standing_of_changeTo_none {report : StepReport} (h : e.Tells e' report)
    (hnone : e.changeTo e' uid = none) : e'.standing? uid = e.standing? uid := by
  unfold changeTo at hnone
  cases hs : e.standing? uid with
  | none =>
    cases hs' : e'.standing? uid with
    | none => rfl
    | some s' => simp [hs, hs'] at hnone
  | some s =>
    cases hs' : e'.standing? uid with
    | none => simp [hs, hs'] at hnone
    | some s' =>
      obtain ⟨hname, hacc⟩ := h.stable uid s s' hs hs'
      have hprio : s.priority = s'.priority := by simpa [hs, hs'] using hnone
      cases s
      cases s'
      simp_all

theorem NotedAt.stable (h : NotedAt e₀ e j uid) {s s' : Standing} (hs : e₀.standing? uid = some s)
    (hs' : e.standing? uid = some s') : s'.name = s.name ∧ s'.account = s.account := by
  cases hf : j.former.get? uid with
  | none =>
    rw [(h.silent hf).1, hs] at hs'
    cases hs'
    exact ⟨rfl, rfl⟩
  | some f =>
    obtain ⟨hold, hkept⟩ := h.former f hf
    rw [hs] at hold
    obtain ⟨old, -, rfl⟩ := Option.map_eq_some_iff.mp hold
    exact hkept s' hs'

theorem Sound.tells_report (h : e.Sound) (hn : Noted e₀ e j)
    (hj : j.TimersOnly) : e₀.Tells e (e.report j) where
  ascending := hn.changes_ascending
  mem_changes := hn.mem_changes
  stable uid _ _ hs hs' := (hn uid).stable hs hs'
  once := h.report_writes_nodup hj
  mem_writes pid priority hmem := by
    obtain ⟨uid, f, b, -, hb, hpid, hprio, -⟩ := (mem_report_writes hj).mp hmem
    exact ⟨uid, b, hb, (h.mem_pids_iff hb).mp hpid, hprio⟩
  unwritten uid pid b' hb' htr hno := by
    cases hf : j.former.get? uid with
    | none =>
      obtain ⟨hsame, hback⟩ := (hn uid).silent hf
      refine ⟨hback pid htr, ?_⟩
      rw [← hsame, standing?_of_some hb']
      rfl
    | some f =>
      have hskipped : ¬ (f.old ≠ some b'.priority ∨ pid ∈ j.newPids) := fun hmoved =>
        hno (List.mem_map_of_mem ((mem_report_writes hj).mpr
          ⟨uid, f, b', hf, hb', (h.mem_pids_iff hb').mpr htr, rfl, hmoved⟩))
      have hold : f.old = some b'.priority := Classical.not_not.mp fun hne => hskipped (Or.inl hne)
      have hnew : pid ∉ j.newPids := fun hmem => hskipped (Or.inr hmem)
      refine ⟨((hn uid).tracks pid htr).resolve_right hnew, ?_⟩
      rw [← ((hn uid).former f hf).1, hold]
      rfl

theorem Sound.tells (h : e.Sound) (r : Request) : e.Tells (e.after r) (e.reportOf r) := by
  obtain ⟨j, hrep⟩ := h.reported r
  rw [hrep.report_eq]
  exact (h.after r).tells_report hrep.noted hrep.timersOnly

end Engine

end MemoryArbiter
