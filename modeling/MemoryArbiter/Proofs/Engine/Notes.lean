import MemoryArbiter.Proofs.Engine.Locality

/-! # What the journal knows

While a step is under way, its journal relates the engine at hand to the one that the step began
with.  Of a uid that is not in the journal, everything is as it was at the beginning; a note on a uid
holds the bundle as it was then.  The parts of a step work on one uid each and write it down, so that
the journal stays true from part to part.
-/

namespace MemoryArbiter

def Effect.write? : Effect → Option (Int × Int)
  | writeScore pid priority => some (pid, priority)
  | _ => none

/-- Scores are only written once the step is over. -/
def Journal.TimersOnly (j : Journal) : Prop := ∀ x ∈ j.effects, x.write? = none

namespace Engine

variable {e₀ e e' : Engine} {uid pid u : Int} {p q : TrackedProcess} {j : Journal} {ev : Event}

/-! ### Writing down -/

theorem record_former (e : Engine) (uid u : Int) (j : Journal) : (e.record uid j).former.get? u =
    if uid = u then
      j.former.get? u <|> (e.bundles.get? u).map fun b => ⟨b.name, b.account, some b.priority⟩
    else j.former.get? u := by
  unfold record
  by_cases hu : uid = u
  · subst hu
    cases hf : j.former.get? uid <;> cases hb : e.bundles.get? uid <;> simp [hf]
  · cases hf : j.former.get? uid <;> cases hb : e.bundles.get? uid <;> simp [Table.get?_insert, hu]

theorem record_newPids (e : Engine) (uid : Int) (j : Journal) :
    (e.record uid j).newPids = j.newPids := by
  unfold record
  split <;> rfl

theorem record_effects (e : Engine) (uid : Int) (j : Journal) :
    (e.record uid j).effects = j.effects := by
  unfold record
  split <;> rfl

theorem record_timersOnly (hj : j.TimersOnly) (e : Engine) (uid : Int) :
    (e.record uid j).TimersOnly := by
  unfold Journal.TimersOnly
  rw [record_effects]
  exact hj

/-- With the journal `j`, what `e` has under `uid` can be told from what `e₀` had there. -/
structure NotedAt (e₀ e : Engine) (j : Journal) (uid : Int) : Prop where
  silent : j.former.get? uid = none →
    e.standing? uid = e₀.standing? uid ∧ ∀ pid, e.Tracks uid pid → e₀.Tracks uid pid
  former : ∀ f, j.former.get? uid = some f →
    (f.old.map fun old => (⟨f.name, f.account, old⟩ : Standing)) = e₀.standing? uid ∧
      ∀ s, e.standing? uid = some s → s.name = f.name ∧ s.account = f.account
  tracks : ∀ pid, e.Tracks uid pid → e₀.Tracks uid pid ∨ pid ∈ j.newPids

/-- The journal `j` is true of all that happened since `e₀`. -/
def Noted (e₀ e : Engine) (j : Journal) : Prop := ∀ uid, NotedAt e₀ e j uid

theorem noted_start (e : Engine) (effects : List Effect) : Noted e e { effects := effects } :=
  fun _ => ⟨fun _ => ⟨rfl, fun _ h => h⟩, (fun _ hf => nomatch hf), fun _ h => Or.inl h⟩

theorem Noted.emit (h : Noted e₀ e j) (effect : Effect) : Noted e₀ e (j.emit effect) :=
  fun uid => ⟨(h uid).silent, (h uid).former, (h uid).tracks⟩

theorem NotedAt.frame (h : NotedAt e₀ e j u) (agree : e.AgreeAt e' u) : NotedAt e₀ e' j u := by
  refine ⟨?_, ?_, fun pid hp => h.tracks pid ((agree.tracks pid).mp hp)⟩
  · intro hnone
    rw [agree.standing?]
    exact ⟨(h.silent hnone).1, fun pid hp => (h.silent hnone).2 pid ((agree.tracks pid).mp hp)⟩
  · intro f hf
    rw [agree.standing?]
    exact h.former f hf

theorem Noted.record (h : Noted e₀ e j) (uid : Int) : Noted e₀ e (e.record uid j) := by
  intro u
  refine ⟨?_, ?_, ?_⟩
  · intro hnone
    rw [record_former] at hnone
    split at hnone
    · cases hj : j.former.get? u with
      | none => exact (h u).silent hj
      | some f => simp [hj] at hnone
    · exact (h u).silent hnone
  · intro f hf
    rw [record_former] at hf
    split at hf
    · cases hj : j.former.get? u with
      | some f' =>
        rw [hj] at hf
        exact (h u).former f (hj.trans hf)
      | none =>
        rw [hj] at hf
        obtain ⟨b, hb, rfl⟩ := Option.map_eq_some_iff.mp hf
        rw [← ((h u).silent hj).1, standing?_of_some hb]
        refine ⟨rfl, ?_⟩
        rintro s ⟨⟩
        exact ⟨rfl, rfl⟩
    · exact (h u).former f hf
  · rw [record_newPids]
    exact (h u).tracks

/-- A part of the step that works on `uid`, which is in the journal unless it has no bundle. -/
theorem Noted.works (h : Noted e₀ e j) (w : e.WorksOn e' uid)
    (hrec : (e.bundles.get? uid).isSome = true → (j.former.get? uid).isSome = true) :
    Noted e₀ e' j := by
  intro u
  by_cases hu : u = uid
  · subst hu
    refine ⟨?_, ?_, fun pid hp => (h u).tracks pid (w.tracks pid hp)⟩
    · intro hnone
      have hgone : e.bundles.get? u = none := by
        cases hb : e.bundles.get? u with
        | none => rfl
        | some b =>
          rw [hb, hnone] at hrec
          exact nomatch hrec rfl
      have hgone' : e'.bundles.get? u = none := by
        cases hb' : e'.bundles.get? u with
        | none => rfl
        | some b' =>
          obtain ⟨b, hb, -⟩ := w.bundle b' hb'
          exact nomatch hgone.symm.trans hb
      obtain ⟨hs, ht⟩ := (h u).silent hnone
      refine ⟨?_, fun pid hp => ht pid (w.tracks pid hp)⟩
      rw [← hs, standing?_of_none hgone, standing?_of_none hgone']
    · intro f hf
      obtain ⟨hold, hkept⟩ := (h u).former f hf
      refine ⟨hold, ?_⟩
      intro s hs
      obtain ⟨b', hb', rfl⟩ := Option.map_eq_some_iff.mp hs
      obtain ⟨b, hb, hname, hacc⟩ := w.bundle b' hb'
      obtain ⟨hn, ha⟩ := hkept b.standing (standing?_of_some hb)
      exact ⟨hname.trans hn, hacc.trans ha⟩
  · exact (h u).frame (w.elsewhere u hu)

theorem record_isSome (hb : (e.bundles.get? uid).isSome = true) :
    ((e.record uid j).former.get? uid).isSome = true := by
  obtain ⟨b, hb⟩ := Option.isSome_iff_exists.mp hb
  rw [record_former, if_pos rfl, hb]
  cases j.former.get? uid <;> rfl

theorem Noted.record_works (h : Noted e₀ e j) (w : e.WorksOn e' uid) :
    Noted e₀ e' (e.record uid j) :=
  (h.record uid).works w record_isSome

/-! ### A process that goes -/

theorem dropProcess_snd (hp : e.processes.get? pid = some p) (j : Journal) :
    (e.dropProcess pid j).2 =
      e.record p.uid (if p.boost.isSome then j.emit (.cancelTimer pid) else j) := by
  unfold dropProcess
  simp only [hp]
  split
  · rfl
  · split
    · rfl
    · split <;> rfl

theorem dropProcess_timersOnly (hj : j.TimersOnly) (e : Engine) (pid : Int) :
    (e.dropProcess pid j).2.TimersOnly := by
  cases hp : e.processes.get? pid with
  | none =>
    rw [dropProcess_of_none hp]
    exact hj
  | some p =>
    unfold Journal.TimersOnly
    rw [dropProcess_snd hp, record_effects]
    split
    · intro x hx
      rcases List.mem_append.mp hx with hx | hx
      · exact hj x hx
      · rw [List.mem_singleton.mp hx]
        rfl
    · exact hj

theorem foldl_dropProcess_timersOnly (pids : List Int) {s : Engine × Journal}
    (hj : s.2.TimersOnly) :
    (pids.foldl (fun s pid => s.1.dropProcess pid s.2) s).2.TimersOnly := by
  induction pids generalizing s with
  | nil => exact hj
  | cons pid pids ih => exact ih (dropProcess_timersOnly hj s.1 pid)

theorem Noted.dropProcess (hs : e.Sound) (h : Noted e₀ e j) (pid : Int) :
    Noted e₀ (e.dropProcess pid j).1 (e.dropProcess pid j).2 := by
  cases hp : e.processes.get? pid with
  | none =>
    rw [dropProcess_of_none hp]
    exact h
  | some p =>
    rw [dropProcess_snd hp]
    refine Noted.record_works ?_ (hs.worksOn_dropProcess hp j)
    split
    · exact h.emit _
    · exact h

theorem Noted.foldl_dropProcess (pids : List Int) {s : Engine × Journal} (hs : s.1.Sound)
    (h : Noted e₀ s.1 s.2) :
    Noted e₀ (pids.foldl (fun s pid => s.1.dropProcess pid s.2) s).1
      (pids.foldl (fun s pid => s.1.dropProcess pid s.2) s).2 := by
  induction pids generalizing s with
  | nil => exact h
  | cons pid pids ih => exact ih (hs.dropProcess pid s.2) (h.dropProcess hs pid)

/-! ### A new process -/

theorem addProcess_newPids (e : Engine) (ev : Event) (j : Journal) :
    (e.addProcess ev j).2.newPids = j.newPids ++ [ev.pid] := by
  show ((e.enroll ev.targetUid).recordJoined ev j).newPids ++ [ev.pid] = _
  unfold recordJoined
  split
  · rw [record_newPids]
  · rfl

theorem addProcess_effects (e : Engine) (ev : Event) (j : Journal) :
    (e.addProcess ev j).2.effects = j.effects := by
  show ((e.enroll ev.targetUid).recordJoined ev j).effects = _
  unfold recordJoined
  split
  · rw [record_effects]
  · rfl

theorem addProcess_timersOnly (hj : j.TimersOnly) : (e.addProcess ev j).2.TimersOnly := by
  unfold Journal.TimersOnly
  rw [addProcess_effects]
  exact hj

theorem addProcess_former (hj : j.former.get? ev.targetUid = none) (u : Int) :
    (e.addProcess ev j).2.former.get? u = if ev.targetUid = u then
      some ⟨(e.bundleFor ev).name, (e.bundleFor ev).account,
        (e.bundles.get? ev.targetUid).map Bundle.priority⟩
    else j.former.get? u := by
  show ((e.enroll ev.targetUid).recordJoined ev j).former.get? u = _
  have hsame : (e.enroll ev.targetUid).bundles = e.bundles := rfl
  unfold recordJoined bundleFor
  cases hb : e.bundles.get? ev.targetUid with
  | none =>
    simp only [hsame, Table.contains, hb]
    exact Table.get?_insert _ _ _ _
  | some b =>
    simp only [hsame, Table.contains, hb]
    refine (record_former _ _ _ _).trans ?_
    by_cases hu : ev.targetUid = u
    · subst hu
      simp [hj, hsame, hb]
    · simp [hu]

theorem Noted.addProcess (h : Noted e₀ e j)
    (hfree : e.processes.get? ev.pid = none) (hj : j.former.get? ev.targetUid = none) :
    Noted e₀ (e.addProcess ev j).1 (e.addProcess ev j).2 := by
  intro u
  have hformer := addProcess_former (e := e) hj u
  by_cases hu : ev.targetUid = u
  · subst hu
    rw [if_pos rfl] at hformer
    obtain ⟨hsame, htracks⟩ := (h ev.targetUid).silent hj
    refine ⟨(fun hnone => nomatch hformer.symm.trans hnone), ?_, ?_⟩
    · intro f hf
      obtain rfl := Option.some.inj (hformer.symm.trans hf)
      refine ⟨?_, ?_⟩
      · rw [← hsame]
        unfold Engine.standing? bundleFor
        cases e.bundles.get? ev.targetUid <;> rfl
      · intro s hsome
        obtain ⟨b, hb, rfl⟩ := Option.map_eq_some_iff.mp hsome
        exact addProcess_bundle j hb
    · intro pid hp
      rw [addProcess_newPids, List.mem_append, List.mem_singleton]
      rcases addProcess_tracks j hp with hpid | hp
      · exact Or.inr (Or.inr hpid)
      · exact Or.inl (htracks pid hp)
  · rw [if_neg hu] at hformer
    have hframe := (h u).frame (addProcess_agreeAt hfree j (Ne.symm hu))
    refine ⟨fun hnone => hframe.silent (hformer.symm.trans hnone),
      fun f hf => hframe.former f (hformer.symm.trans hf), ?_⟩
    intro pid hp
    rw [addProcess_newPids, List.mem_append]
    rcases hframe.tracks pid hp with hp | hp
    · exact Or.inl hp
    · exact Or.inr (Or.inl hp)

theorem dropProcess_former (hno : ¬ e.Tracks uid pid) :
    (e.dropProcess pid {}).2.former.get? uid = none := by
  cases hp : e.processes.get? pid with
  | none =>
    rw [dropProcess_of_none hp]
    rfl
  | some p =>
    have hu : p.uid ≠ uid := fun hu => hno ⟨p, hp, hu⟩
    rw [dropProcess_snd hp, record_former, if_neg hu]
    split <;> rfl

/-! ### The switch -/

theorem Noted.foldl_record (uids : List Int) (h : Noted e₀ e j) :
    Noted e₀ e (uids.foldl (fun j uid => e.record uid j) j) := by
  induction uids generalizing j with
  | nil => exact h
  | cons uid uids ih => exact ih (h.record uid)

theorem record_keeps (uid : Int) (hu : (j.former.get? u).isSome = true) :
    ((e.record uid j).former.get? u).isSome = true := by
  obtain ⟨f, hf⟩ := Option.isSome_iff_exists.mp hu
  rw [record_former, hf]
  split <;> rfl

theorem foldl_record_keeps (uids : List Int) (hu : (j.former.get? u).isSome = true) :
    ((uids.foldl (fun j uid => e.record uid j) j).former.get? u).isSome = true := by
  induction uids generalizing j with
  | nil => exact hu
  | cons uid uids ih => exact ih (record_keeps uid hu)

theorem foldl_record_isSome {uids : List Int} (hmem : u ∈ uids)
    (hb : (e.bundles.get? u).isSome = true) :
    ((uids.foldl (fun j uid => e.record uid j) j).former.get? u).isSome = true := by
  induction uids generalizing j with
  | nil => cases hmem
  | cons uid uids ih =>
    rcases List.mem_cons.mp hmem with rfl | hmem
    · exact foldl_record_keeps uids (record_isSome hb)
    · exact ih hmem

theorem Noted.foldl_updateMembers (uids : List Int) (ha : e.Arranged) (h : Noted e₀ e j)
    (hrec : ∀ u ∈ uids, (e.bundles.get? u).isSome = true → (j.former.get? u).isSome = true) :
    Noted e₀ (uids.foldl updateMembers e) j := by
  induction uids generalizing e with
  | nil => exact h
  | cons uid uids ih =>
    refine ih (ha.updateMembers uid) (h.works (ha.housed uid).worksOn_updateMembers
      (hrec uid (List.mem_cons_self ..))) ?_
    intro u hu hb
    rw [updateMembers_isSome] at hb
    exact hrec u (List.mem_cons_of_mem _ hu) hb

theorem foldl_record_effects (uids : List Int) (e : Engine) (j : Journal) :
    (uids.foldl (fun j uid => e.record uid j) j).effects = j.effects := by
  induction uids generalizing j with
  | nil => rfl
  | cons uid uids ih => rw [List.foldl_cons, ih, record_effects]

theorem foldl_record_timersOnly (uids : List Int) (hj : j.TimersOnly) (e : Engine) :
    (uids.foldl (fun j uid => e.record uid j) j).TimersOnly := by
  unfold Journal.TimersOnly
  rw [foldl_record_effects]
  exact hj

theorem timersOnly_start : ({} : Journal).TimersOnly := by
  rintro x ⟨⟩

theorem switchTo_of_ne {account : Int} (hc : e.current ≠ some account) :
    e.switchTo account =
      let affected := (e.fronted account).uidsOf (e.current.toList ++ [account])
      conclude (affected.foldl updateMembers (e.fronted account),
        affected.foldl (fun j uid => (e.fronted account).record uid j) {}) := by
  unfold switchTo
  rw [if_neg hc]
  rfl

/-! ### A process that changes -/

theorem Sound.noted_putProcess (hs : e.Sound) (h : Noted e₀ e j)
    (hq : e.processes.get? pid = some q) (hpid : p.pid = q.pid) (huid : p.uid = q.uid) :
    Noted e₀ (e.putProcess p) (e.record q.uid j) := by
  have hget : e.processes.get? p.pid = some q := by
    rw [hpid, hs.pid_eq hq]
    exact hq
  have hw := worksOn_putProcess hget huid.symm
  rw [huid] at hw
  exact h.record_works hw

end Engine

end MemoryArbiter
