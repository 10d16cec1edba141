import MemoryArbiter.Proofs.Engine.History

/-! # What a step leaves alone

A step is made of parts, and each part works on the records of one uid: the processes under it and
its bundle.  The other uids keep what they have.  Of its own uid a part may take records out and
price the bundle anew, but the bundle keeps its name and its account.
-/

namespace MemoryArbiter

/-- What the outside is told of a bundle. -/
structure Standing where
  name : String
  account : Int
  priority : Int
  deriving DecidableEq, Repr, Inhabited

def Bundle.standing (b : Bundle) : Standing := ⟨b.name, b.account, b.priority⟩

namespace Engine

def standing? (e : Engine) (uid : Int) : Option Standing := (e.bundles.get? uid).map Bundle.standing

variable {e e' e'' : Engine} {uid pid u : Int} {b : Bundle} {p q : TrackedProcess} {ev : Event}

theorem standing?_of_some (hb : e.bundles.get? uid = some b) : e.standing? uid = some b.standing := by
  unfold standing?
  rw [hb]
  rfl

theorem standing?_of_none (hb : e.bundles.get? uid = none) : e.standing? uid = none := by
  unfold standing?
  rw [hb]
  rfl

theorem AgreeAt.standing? (h : e.AgreeAt e' u) : e'.standing? u = e.standing? u := by
  unfold Engine.standing?
  rw [h.bundle]

/-! ### Working on one uid -/

/-- From `e` to `e'` only the records of `uid` may have changed.  Processes and the bundle may be
gone, but none is new, and a bundle that is left has kept its name and its account. -/
structure WorksOn (e e' : Engine) (uid : Int) : Prop where
  elsewhere : ∀ u, u ≠ uid → e.AgreeAt e' u
  bundle : ∀ b', e'.bundles.get? uid = some b' →
    ∃ b, e.bundles.get? uid = some b ∧ b'.name = b.name ∧ b'.account = b.account
  tracks : ∀ pid, e'.Tracks uid pid → e.Tracks uid pid

theorem WorksOn.refl (e : Engine) (uid : Int) : e.WorksOn e uid :=
  ⟨fun u _ => AgreeAt.refl e u, fun b hb => ⟨b, hb, rfl, rfl⟩, fun _ h => h⟩

theorem WorksOn.trans (h : e.WorksOn e' uid) (h' : e'.WorksOn e'' uid) : e.WorksOn e'' uid := by
  refine ⟨fun u hu => (h.elsewhere u hu).trans (h'.elsewhere u hu), ?_,
    fun pid hp => h.tracks pid (h'.tracks pid hp)⟩
  intro b'' hb''
  obtain ⟨b', hb', hn', ha'⟩ := h'.bundle b'' hb''
  obtain ⟨b, hb, hn, ha⟩ := h.bundle b' hb'
  exact ⟨b, hb, hn'.trans hn, ha'.trans ha⟩

theorem worksOn_updateBundle (e : Engine) (uid : Int) : e.WorksOn (e.updateBundle uid) uid := by
  refine ⟨fun u hu => updateBundle_agreeAt hu, ?_, ?_⟩
  · intro b' hb'
    cases hb : e.bundles.get? uid with
    | none =>
      rw [updateBundle_of_none hb, hb] at hb'
      cases hb'
    | some b =>
      rw [updateBundle_of_some hb] at hb'
      simp only [Table.get?_insert_self, Option.some.injEq] at hb'
      subst hb'
      exact ⟨b, rfl, rfl, rfl⟩
  · intro pid hp
    unfold Tracks at hp ⊢
    rw [updateBundle_processes] at hp
    exact hp

theorem worksOn_putProcess (hp : e.processes.get? p.pid = some q) (hu : q.uid = p.uid) :
    e.WorksOn (e.putProcess p) p.uid := by
  have hfree : ∀ r, e.processes.get? p.pid = some r → r.uid = p.uid := by
    intro r hr
    rw [Option.some.inj (hr.symm.trans hp)]
    exact hu
  have hwith : e.WorksOn (e.withProcess p) p.uid := by
    refine ⟨fun u hu => withProcess_agreeAt hfree hu, fun b hb => ⟨b, hb, rfl, rfl⟩, ?_⟩
    rintro pid ⟨r, hr, hru⟩
    rcases withProcess_cases hr with ⟨hpid, -⟩ | hr
    · exact ⟨q, by rw [hpid]; exact hp, hu⟩
    · exact ⟨r, hr, hru⟩
  rw [putProcess_eq_withProcess]
  exact hwith.trans (worksOn_updateBundle _ _)

theorem HousedAt.worksOn_updateMembers (hh : e.HousedAt uid) :
    e.WorksOn (e.updateMembers uid) uid := by
  cases hb : e.bundles.get? uid with
  | none =>
    rw [updateMembers_of_none hb]
    exact WorksOn.refl e uid
  | some b =>
    have hin : e.WorksOn (e.repricedIn b) uid :=
      ⟨fun u hu => hh.repricedIn_agreeAt hb hu, fun c hc => ⟨c, hc, rfl, rfl⟩,
        fun pid hp => (hh.repricedIn_tracks hb pid).mp hp⟩
    rw [updateMembers_of_some hb]
    exact hin.trans (worksOn_updateBundle _ _)

theorem worksOn_without (hp : e.processes.get? pid = some p) (hb : e.bundles.get? b.uid = some b)
    (hu : p.uid = b.uid) : e.WorksOn (e.without b pid) b.uid := by
  refine ⟨fun u hne => without_agreeAt hp hu hne, ?_, fun qid hq => ((without_tracks qid).mp hq).2⟩
  intro b' hb'
  rw [← Option.some.inj ((without_get?_self rfl).symm.trans hb')]
  exact ⟨b, hb, rfl, rfl⟩

theorem worksOn_dropBundle (e : Engine) (b : Bundle) : e.WorksOn (e.dropBundle b) b.uid := by
  rw [dropBundle_eq]
  refine ⟨fun u hu => ⟨fun _ _ _ => Iff.rfl, ?_, ?_⟩, ?_, fun _ h => h⟩
  · exact (Table.get?_erase _ _ _).trans (if_neg (Ne.symm hu))
  · exact (Index.get?_take _ _ _).trans (if_neg (Ne.symm hu))
  · intro b' hb'
    exact nomatch (Table.get?_erase_self _ _).symm.trans hb'

theorem Sound.worksOn_dropProcess (h : e.Sound) (hp : e.processes.get? pid = some p)
    (j : Journal) : e.WorksOn (e.dropProcess pid j).1 p.uid := by
  obtain ⟨-, b, hb⟩ := (h.housed p.uid).process pid p hp rfl
  obtain ⟨hbu, -⟩ := (h.housed p.uid).bundle b hb
  have hwithout : e.WorksOn (e.without b pid) p.uid := by
    have hw := worksOn_without hp (by rw [hbu]; exact hb) hbu.symm
    rwa [hbu] at hw
  have hgone := worksOn_dropBundle (e.without b pid) (b.without pid)
  have hgone' : (e.without b pid).WorksOn _ p.uid := hbu ▸ hgone
  rw [dropProcess_fst hp hb hbu]
  split
  · exact hwithout.trans hgone'
  · split
    · exact hwithout.trans (worksOn_updateBundle _ _)
    · exact hwithout

theorem noteKilled_processes (e : Engine) (uid : Int) :
    (e.noteKilled uid).1.processes = e.processes := by
  unfold noteKilled
  split <;> rfl

theorem noteKilled_standing? (e : Engine) (uid u : Int) :
    (e.noteKilled uid).1.standing? u = e.standing? u := by
  unfold noteKilled Engine.standing?
  cases hb : e.bundles.get? uid with
  | none => rfl
  | some b =>
    by_cases hu : uid = u
    · subst hu
      simp only [Table.get?_insert_self, hb]
      rfl
    · simp only [Table.get?_insert, if_neg hu]

/-! ### Looking things up -/

theorem Sound.pid_eq (h : e.Sound) (hp : e.processes.get? pid = some p) : p.pid = pid :=
  ((h.housed p.uid).process pid p hp rfl).1

theorem Sound.mem_pids_iff (h : e.Sound) (hb : e.bundles.get? uid = some b) :
    pid ∈ b.pids ↔ e.Tracks uid pid :=
  ((h.housed uid).bundle b hb).2.2.2 pid

/-! ### A new process -/

theorem addProcess_agreeAt (hfree : e.processes.get? ev.pid = none) (j : Journal)
    (hu : u ≠ ev.targetUid) : e.AgreeAt (e.addProcess ev j).1 u := by
  have hjoined : e.AgreeAt (e.withJoined ev) u :=
    ⟨fun _ _ _ => Iff.rfl, (Table.get?_insert _ _ _ _).trans (if_neg (Ne.symm hu)), rfl⟩
  rw [addProcess_fst, putProcess_eq_withProcess]
  refine (hjoined.trans (withProcess_agreeAt ?_ hu)).trans (updateBundle_agreeAt hu)
  exact fun q hq => nomatch hfree.symm.trans hq

theorem addProcess_bundle (j : Journal)
    (hb : (e.addProcess ev j).1.bundles.get? ev.targetUid = some b) :
    b.name = (e.bundleFor ev).name ∧ b.account = (e.bundleFor ev).account := by
  rw [addProcess_fst, putProcess_eq_withProcess] at hb
  obtain ⟨c, hc, hname, hacc⟩ := (worksOn_updateBundle _ _).bundle b hb
  have hjoined : e.joined ev = c := Option.some.inj ((Table.get?_insert_self _ _ _).symm.trans hc)
  subst hjoined
  exact ⟨hname, hacc⟩

theorem addProcess_tracks (j : Journal) (hp : (e.addProcess ev j).1.Tracks ev.targetUid pid) :
    pid = ev.pid ∨ e.Tracks ev.targetUid pid := by
  rw [addProcess_fst, putProcess_eq_withProcess] at hp
  obtain ⟨q, hq, hu⟩ := (worksOn_updateBundle _ _).tracks pid hp
  rcases withProcess_cases hq with ⟨hpid, -⟩ | hq
  · exact Or.inl hpid
  · exact Or.inr ⟨q, hq, hu⟩

end Engine

end MemoryArbiter
