import MemoryArbiter.Proofs.Engine.Report

/-! # The kernel mirrors the priorities

If every score write of a run is performed, the score of a tracked process is the priority of its
bundle.  A step that leaves a process out has neither moved its bundle nor let it join another one,
so that what was written before still stands.
-/

namespace MemoryArbiter

def Effect.mirror (scores : Table Int Int) : Effect → Table Int Int
  | .writeScore pid priority => scores.insert pid priority
  | _ => scores

/-- What has been written last, by pid. -/
def lastScores (effects : List Effect) : Table Int Int := effects.foldl Effect.mirror ∅

theorem foldl_mirror_of_not_mem {effects : List Effect} {pid : Int}
    (hno : pid ∉ (effects.filterMap Effect.write?).map Prod.fst) (scores : Table Int Int) :
    (effects.foldl Effect.mirror scores).get? pid = scores.get? pid := by
  induction effects generalizing scores with
  | nil => rfl
  | cons x effects ih =>
    cases x with
    | writeScore q priority =>
      simp only [List.filterMap_cons, Effect.write?, List.map_cons, List.mem_cons, not_or] at hno
      rw [List.foldl_cons, ih hno.2]
      exact (Table.get?_insert _ _ _ _).trans (if_neg (Ne.symm hno.1))
    | armTimer q token delay => exact ih hno scores
    | cancelTimer q => exact ih hno scores

theorem foldl_mirror_of_mem {effects : List Effect} {pid priority : Int}
    (hnd : ((effects.filterMap Effect.write?).map Prod.fst).Nodup)
    (hmem : (pid, priority) ∈ effects.filterMap Effect.write?) (scores : Table Int Int) :
    (effects.foldl Effect.mirror scores).get? pid = some priority := by
  induction effects generalizing scores with
  | nil => cases hmem
  | cons x effects ih =>
    cases x with
    | writeScore q priority' =>
      simp only [List.filterMap_cons, Effect.write?, List.map_cons, List.nodup_cons,
        List.mem_cons] at hnd hmem
      rcases hmem with hhead | hmem
      · obtain ⟨rfl, rfl⟩ := Prod.mk.inj hhead
        rw [List.foldl_cons, foldl_mirror_of_not_mem hnd.1]
        exact Table.get?_insert_self _ _ _
      · exact ih hnd.2 hmem _
    | armTimer q token delay => exact ih hnd hmem scores
    | cancelTimer q => exact ih hnd hmem scores

namespace Engine

variable {e e' : Engine} {scores : Table Int Int} {report : StepReport}

def MirroredBy (e : Engine) (scores : Table Int Int) : Prop :=
  ∀ uid pid b, e.bundles.get? uid = some b → e.Tracks uid pid → scores.get? pid = some b.priority

theorem Tells.mirroredBy (h : e.Tells e' report) (hm : e.MirroredBy scores) :
    e'.MirroredBy (report.effects.foldl Effect.mirror scores) := by
  intro uid pid b' hb' htr
  by_cases hw : pid ∈ report.writes.map Prod.fst
  · obtain ⟨⟨q, priority⟩, hmem, rfl⟩ := List.mem_map.mp hw
    obtain ⟨v, b, hb, ⟨p, hp, hpv⟩, hprio⟩ := h.mem_writes q priority hmem
    obtain ⟨p', hp', hpu⟩ := htr
    have huv : v = uid := by rw [← hpv, ← hpu, Option.some.inj (hp.symm.trans hp')]
    subst huv
    rw [foldl_mirror_of_mem h.once hmem scores, ← hprio, Option.some.inj (hb.symm.trans hb')]
  · obtain ⟨hbefore, hsame⟩ := h.unwritten uid pid b' hb' htr hw
    obtain ⟨s, hs, hprio⟩ := Option.map_eq_some_iff.mp hsame
    obtain ⟨b, hb, rfl⟩ := Option.map_eq_some_iff.mp hs
    rw [foldl_mirror_of_not_mem hw, hm uid pid b hb hbefore]
    exact congrArg some hprio

theorem Sound.mirroredBy_history (requests : List Request) (h : e.Sound) (hm : e.MirroredBy scores) :
    (requests.foldl Engine.after e).MirroredBy
      (((e.history requests).flatMap StepReport.effects).foldl Effect.mirror scores) := by
  induction requests generalizing e scores with
  | nil => exact hm
  | cons r requests ih =>
    rw [history, List.flatMap_cons, List.foldl_append]
    exact ih (h.after r) ((h.tells r).mirroredBy hm)

/-- After every run the scores written last are the priorities of the bundles, and the next request,
whatever it is, writes to tracked processes only, to each at most once. -/
theorem run_mirrored (settings : Settings) (requests : List Request) :
    (∀ pid p, (run settings requests).processes.get? pid = some p →
      ∃ b, (run settings requests).bundles.get? p.uid = some b ∧
        (lastScores (((new settings).history requests).flatMap StepReport.effects)).get? pid =
          some b.priority) ∧
    ∀ r, (((run settings requests).reportOf r).writes.map Prod.fst).Nodup ∧
      ∀ pid ∈ ((run settings requests).reportOf r).writes.map Prod.fst,
        ∃ p, ((run settings requests).after r).processes.get? pid = some p := by
  have hsound := run_sound settings requests
  have hstart : (new settings).MirroredBy ∅ := by
    intro uid pid b hb
    cases hb
  have hmirror : (run settings requests).MirroredBy _ :=
    (sound_new settings).mirroredBy_history requests hstart
  refine ⟨?_, fun r => ⟨(hsound.tells r).once, ?_⟩⟩
  · intro pid p hp
    obtain ⟨-, b, hb⟩ := (hsound.housed p.uid).process pid p hp rfl
    exact ⟨b, hb, hmirror p.uid pid b hb ⟨p, hp, rfl⟩⟩
  · intro pid hpid
    obtain ⟨⟨q, priority⟩, hmem, rfl⟩ := List.mem_map.mp hpid
    obtain ⟨-, -, -, ⟨p, hp, -⟩, -⟩ := (hsound.tells r).mem_writes q priority hmem
    exact ⟨p, hp⟩

end Engine

end MemoryArbiter
