import MemoryArbiter.Proofs.Index.Order
import Mathlib.Data.Finset.Card

/-! # The map that an index keeps

An index answers as the finite map of its calls: a uid has the priority that the latest call about
it left it with.  Nothing else can be told from an index, neither the order of calls about different
uids nor how often a call was made.
-/

namespace MemoryArbiter.Index

inductive Call
  | insert (uid priority : Int)
  | take (uid : Int)
  deriving DecidableEq, Repr, Inhabited

def Call.uid : Call → Int
  | insert uid _ => uid
  | take uid => uid

/-- The priority that the call leaves its uid with. -/
def Call.priority? : Call → Option Int
  | insert _ priority => some priority
  | take _ => none

theorem Call.eq_insert_iff {c : Call} {uid priority : Int} :
    c = .insert uid priority ↔ c.uid = uid ∧ c.priority? = some priority := by
  cases c <;> simp [Call.uid, Call.priority?]

/-- The index after one call. -/
def after (i : Index) : Call → Index
  | .insert uid priority => i.insert uid priority
  | .take uid => (i.take uid).1

/-- The index after all `calls`, from an empty one. -/
def run (calls : List Call) : Index := calls.foldl after empty

/-- The priority that the latest call about `uid` left it with. -/
def latest? (calls : List Call) (uid : Int) : Option Int :=
  (calls.reverse.find? fun c => c.uid = uid).bind Call.priority?

/-- The uids that have a priority after `calls`. -/
def present (calls : List Call) : Finset Int :=
  (calls.map Call.uid).toFinset.filter fun uid => (latest? calls uid).isSome

variable {i : Index} {calls later : List Call} {c d : Call} {uid priority : Int}

/-! ### The map of the calls -/

theorem latest?_concat (calls : List Call) (c : Call) (uid : Int) :
    latest? (calls ++ [c]) uid = if c.uid = uid then c.priority? else latest? calls uid := by
  unfold latest?
  rw [List.reverse_concat, List.find?_cons]
  by_cases h : c.uid = uid <;> simp [h]

/-- The latest call about the uid inserts it at the priority. -/
theorem latest?_eq_some_iff : latest? calls uid = some priority ↔
    ∃ before behind, calls = before ++ .insert uid priority :: behind ∧
      ∀ c ∈ behind, c.uid ≠ uid := by
  unfold latest?
  constructor
  · intro h
    obtain ⟨c, hfind, hpriority⟩ := Option.bind_eq_some_iff.mp h
    obtain ⟨huid, behind, before, hcalls, hbehind⟩ := List.find?_eq_some_iff_append.mp hfind
    obtain rfl := Call.eq_insert_iff.mpr ⟨of_decide_eq_true huid, hpriority⟩
    refine ⟨before.reverse, behind.reverse, ?_, fun d hd => ?_⟩
    · rw [← List.reverse_reverse calls, hcalls]
      simp
    · simpa using hbehind d (List.mem_reverse.mp hd)
  · rintro ⟨before, behind, rfl, hbehind⟩
    have hfind : (before ++ .insert uid priority :: behind).reverse.find? (fun c => c.uid = uid) =
        some (.insert uid priority) := by
      refine List.find?_eq_some_iff_append.mpr ⟨decide_eq_true rfl, behind.reverse,
        before.reverse, by simp, fun d hd => ?_⟩
      simpa using hbehind d (List.mem_reverse.mp hd)
    rw [hfind]
    rfl

theorem mem_present : uid ∈ present calls ↔ (latest? calls uid).isSome = true := by
  rw [present, Finset.mem_filter, and_iff_right_iff_imp, List.mem_toFinset]
  intro h
  obtain ⟨priority, hpriority⟩ := Option.isSome_iff_exists.mp h
  obtain ⟨before, behind, rfl, -⟩ := latest?_eq_some_iff.mp hpriority
  simp [Call.uid]

/-! ### One call -/

theorem Coherent.after (h : i.Coherent) (c : Call) : (i.after c).Coherent := by
  cases c with
  | insert uid priority => exact h.insert uid priority
  | take uid => exact h.take uid

theorem get?_after (i : Index) (c : Call) (uid : Int) :
    (i.after c).get? uid = if c.uid = uid then c.priority? else i.get? uid := by
  cases c with
  | insert u priority => exact get?_insert i u priority uid
  | take u => exact get?_take i u uid

theorem take_snd (i : Index) (uid : Int) : (i.take uid).2 = i.get? uid := by
  unfold take
  split
  · next h => exact h.symm
  · next h => exact h.symm

/-! ### All calls -/

theorem run_concat (calls : List Call) (c : Call) : run (calls ++ [c]) = (run calls).after c := by
  simp [run]

theorem run_coherent (calls : List Call) : (run calls).Coherent := by
  induction calls using List.reverseRecOn with
  | nil => exact coherent_empty
  | append_singleton calls c ih =>
    rw [run_concat]
    exact ih.after c

theorem get?_run (calls : List Call) (uid : Int) : (run calls).get? uid = latest? calls uid := by
  induction calls using List.reverseRecOn with
  | nil => rfl
  | append_singleton calls c ih => rw [run_concat, get?_after, latest?_concat, ih]

theorem mem_ranks_run {r : Rank} :
    r ∈ (run calls).ranks ↔ latest? calls r.uid = some r.priority := by
  rw [run_coherent calls r, get?_run]

/-- The index keeps nothing but the map. -/
theorem run_eq_of_latest? (h : ∀ uid, latest? calls uid = latest? later uid) :
    run calls = run later :=
  Coherent.ext (run_coherent calls) (run_coherent later) fun uid => by rw [get?_run, get?_run, h]

theorem size_run (calls : List Call) : (run calls).size = (present calls).card := by
  have huids : (run calls).byUid.keys.toFinset = present calls := by
    ext uid
    rw [List.mem_toFinset, Table.mem_keys, mem_present, ← get?_run]
    rfl
  rw [(run_coherent calls).size_eq, Table.size_eq_length_keys, ← huids,
    List.toFinset_card_of_nodup (Table.keys_nodup _)]

theorem isEmpty_run_iff : (run calls).isEmpty = true ↔ ∀ uid, latest? calls uid = none := by
  rw [isEmpty, Table.isEmpty_iff]
  constructor
  · intro h uid
    refine Option.eq_none_iff_forall_ne_some.mpr fun priority hpriority => ?_
    have hlisted : (⟨priority, uid⟩ : Rank) ∈ (run calls).ranks := mem_ranks_run.mpr hpriority
    exact nomatch (h _).symm.trans (mem_ranks.mp hlisted)
  · intro h r
    refine Option.eq_none_iff_forall_ne_some.mpr fun u hlisted => ?_
    exact nomatch (h r.uid).symm.trans (mem_ranks_run.mp (mem_ranks.mpr hlisted))

/-- At most one rank of a uid is listed, the one of its priority. -/
theorem filter_ranks_run (calls : List Call) (uid : Int) :
    (run calls).ranks.filter (fun r => r.uid = uid) =
      ((latest? calls uid).map fun priority => ⟨priority, uid⟩).toList := by
  refine ranks_ext ((run calls).ranks_ascending.filter _) ?_ fun r => ?_
  · cases latest? calls uid with
    | none => exact List.Pairwise.nil
    | some priority => exact List.pairwise_singleton ..
  · rw [List.mem_filter, mem_ranks_run, decide_eq_true_iff, Option.mem_toList,
      Option.map_eq_some_iff]
    constructor
    · rintro ⟨hlatest, rfl⟩
      exact ⟨r.priority, hlatest, rfl⟩
    · rintro ⟨priority, hlatest, rfl⟩
      exact ⟨hlatest, rfl⟩

/-! ### Calls about different uids, and repeated ones -/

theorem run_exchange (before behind : List Call) (h : c.uid ≠ d.uid) :
    run (before ++ c :: d :: behind) = run (before ++ d :: c :: behind) := by
  have hboth : run (before ++ [c] ++ [d]) = run (before ++ [d] ++ [c]) := by
    refine run_eq_of_latest? fun uid => ?_
    simp only [latest?_concat]
    by_cases hd : d.uid = uid
    · have hc : c.uid ≠ uid := fun hc => h (hc.trans hd.symm)
      simp [hd, hc]
    · simp [hd]
  simpa [run] using congrArg (behind.foldl after) hboth

theorem run_repeated (h : latest? calls uid = some priority) :
    run (calls ++ [.insert uid priority]) = run calls := by
  refine run_eq_of_latest? fun u => ?_
  rw [latest?_concat]
  by_cases hu : uid = u
  · rw [← hu, h]
    exact if_pos rfl
  · exact if_neg hu

/-! ### The map -/

/-- The index after `calls` is the map from each uid to the priority of its latest insertion. -/
structure KeepsMap (calls : List Call) : Prop where
  /-- A uid has a priority if an insertion gave it that one and no later call is about the uid. -/
  latest : ∀ uid priority, latest? calls uid = some priority ↔
    ∃ before behind, calls = before ++ .insert uid priority :: behind ∧ ∀ c ∈ behind, c.uid ≠ uid
  ascending : (run calls).ranks.Pairwise fun r s =>
    r.priority < s.priority ∨ r.priority = s.priority ∧ r.uid < s.uid
  once : ∀ uid, (run calls).ranks.filter (fun r => r.uid = uid) =
    ((latest? calls uid).map fun priority => ⟨priority, uid⟩).toList
  looks : ∀ uid, (run calls).get? uid = latest? calls uid
  taken : ∀ uid, ((run calls).take uid).2 = latest? calls uid
  uids : ∀ uid, uid ∈ present calls ↔ (latest? calls uid).isSome = true
  size : (run calls).size = (present calls).card
  isEmpty : (run calls).isEmpty = true ↔ ∀ uid, latest? calls uid = none
  agrees : (run calls).agrees = true
  /-- Calls that amount to the same map lead to the same index. -/
  determined : ∀ later, (∀ uid, latest? calls uid = latest? later uid) → run calls = run later
  exchange : ∀ before behind c d, calls = before ++ c :: d :: behind → c.uid ≠ d.uid →
    run calls = run (before ++ d :: c :: behind)
  repeated : ∀ uid priority, latest? calls uid = some priority →
    run (calls ++ [.insert uid priority]) = run calls

theorem run_keepsMap (calls : List Call) : KeepsMap calls where
  latest _ _ := latest?_eq_some_iff
  ascending := (run calls).ranks_ascending
  once := filter_ranks_run calls
  looks := get?_run calls
  taken uid := by rw [take_snd, get?_run]
  uids _ := mem_present
  size := size_run calls
  isEmpty := isEmpty_run_iff
  agrees := (run_coherent calls).agrees
  determined _ := run_eq_of_latest?
  exchange before behind c d hcalls huid := by rw [hcalls, run_exchange before behind huid]
  repeated _ _ := run_repeated

/-- A repeated insertion, and two insertions the other way round. -/
theorem run_keepsMap_rearranged :
    run [.insert 10 400, .insert 20 0, .insert 20 0] = run [.insert 20 0, .insert 10 400] := by
  have hmap := run_keepsMap [.insert 10 400, .insert 20 0]
  have hrepeated := hmap.repeated 20 0 (by decide)
  have hexchange := hmap.exchange [] [] _ _ rfl (by decide)
  exact hrepeated.trans hexchange

example : (run [.insert 30 400, .insert 10 400, .insert 10 100, .insert 20 0, .take 30]).ranks =
    [⟨0, 20⟩, ⟨100, 10⟩] := by decide

end MemoryArbiter.Index
