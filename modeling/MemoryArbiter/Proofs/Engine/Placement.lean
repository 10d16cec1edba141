import MemoryArbiter.Engine.Step
import MemoryArbiter.Proofs.Engine.Pricing

/-! # Putting a process in its place

`Engine.putProcess` serves new processes and changed ones.  In both cases the bundle that is to hold
the process is there already and lists it (`Admits`); after that everything about the uid is sound.
-/

namespace MemoryArbiter

namespace Engine

variable {e : Engine} {uid : Int} {b : Bundle} {p : TrackedProcess}

/-- `b` is the bundle of `p`: it lists `p` and the processes of that uid, which are priced. -/
structure Admits (e : Engine) (b : Bundle) (p : TrackedProcess) : Prop where
  bundle : e.bundles.get? p.uid = some b
  uid : b.uid = p.uid
  account : b.account = accountOf p.uid
  pids : ∀ pid, pid ∈ b.pids ↔ pid = p.pid ∨ e.Tracks p.uid pid
  free : ∀ q, e.processes.get? p.pid = some q → q.uid = p.uid
  process : ∀ pid q, e.processes.get? pid = some q → q.uid = p.uid →
    q.pid = pid ∧ q.priority = e.due b q

/-! ### The record alone -/

/-- `e` with the record of `p` in the process table, its priority recomputed. -/
def withProcess (e : Engine) (p : TrackedProcess) : Engine :=
  { e with processes := e.processes.insert p.pid (e.repriced p) }

theorem withProcess_get? (pid : Int) : (e.withProcess p).processes.get? pid =
    if p.pid = pid then some (e.repriced p) else e.processes.get? pid :=
  Table.get?_insert _ _ _ _

theorem withProcess_cases {pid : Int} {q : TrackedProcess}
    (hq : (e.withProcess p).processes.get? pid = some q) :
    (pid = p.pid ∧ q = e.repriced p) ∨ e.processes.get? pid = some q := by
  rw [withProcess_get?] at hq
  by_cases hpid : p.pid = pid
  · rw [if_pos hpid] at hq
    exact Or.inl ⟨hpid.symm, (Option.some.inj hq).symm⟩
  · rw [if_neg hpid] at hq
    exact Or.inr hq

theorem withProcess_agreeAt (hfree : ∀ q, e.processes.get? p.pid = some q → q.uid = p.uid) {u : Int}
    (hu : u ≠ p.uid) : e.AgreeAt (e.withProcess p) u := by
  refine ⟨?_, rfl, rfl⟩
  intro pid q hq
  rw [withProcess_get?]
  by_cases hpid : p.pid = pid
  · subst hpid
    rw [if_pos rfl]
    constructor
    · intro hs
      have hqp : e.repriced p = q := Option.some.inj hs
      have hqu : (e.repriced p).uid = q.uid := congrArg TrackedProcess.uid hqp
      exact absurd (hq.symm.trans hqu.symm) hu
    · intro hs
      exact absurd (hq.symm.trans (hfree q hs)) hu
  · rw [if_neg hpid]

theorem Admits.tracks (h : e.Admits b p) (pid : Int) :
    (e.withProcess p).Tracks p.uid pid ↔ pid ∈ b.pids := by
  rw [h.pids]
  constructor
  · rintro ⟨q, hq, hu⟩
    rcases withProcess_cases hq with ⟨hpid, -⟩ | hq
    · exact Or.inl hpid
    · exact Or.inr ⟨q, hq, hu⟩
  · intro hpid
    by_cases he : p.pid = pid
    · exact ⟨e.repriced p, by rw [withProcess_get?, if_pos he], rfl⟩
    · rcases hpid with hpid | ⟨q, hq, hu⟩
      · exact absurd hpid.symm he
      · exact ⟨q, by rw [withProcess_get?, if_neg he]; exact hq, hu⟩

theorem Admits.housedAt (h : e.Admits b p) : (e.withProcess p).HousedAt p.uid := by
  refine ⟨fun pid q hq hu => ⟨?_, b, h.bundle⟩, ?_⟩
  · rcases withProcess_cases hq with ⟨hpid, hqp⟩ | hq
    · rw [hpid, hqp]
      rfl
    · exact (h.process pid q hq hu).1
  · intro c hc
    have hbc : b = c := Option.some.inj (h.bundle.symm.trans hc)
    subst hbc
    refine ⟨h.uid, h.account, ⟨p.pid, (h.pids p.pid).mpr (Or.inl rfl)⟩, ?_⟩
    intro pid
    exact (h.tracks pid).symm

theorem Admits.priority_eq (h : e.Admits b p) (he : e.Enrolled) {pid : Int} {q : TrackedProcess}
    (hq : (e.withProcess p).processes.get? pid = some q) (hu : q.uid = p.uid) :
    q.priority = (e.withProcess p).due b q := by
  rcases withProcess_cases hq with ⟨-, hqp⟩ | hq
  · rw [hqp]
    exact he.repriced_priority h.bundle
  · exact (h.process pid q hq hu).2

/-! ### With its bundle -/

theorem putProcess_eq_withProcess (p : TrackedProcess) :
    e.putProcess p = (e.withProcess p).updateBundle p.uid := putProcess_eq p

theorem putProcess_terms (p : TrackedProcess) : e.SameTerms (e.putProcess p) := by
  have hterms : e.SameTerms (e.withProcess p) := ⟨rfl, rfl, rfl⟩
  rw [putProcess_eq_withProcess]
  exact hterms.trans updateBundle_terms

theorem Admits.putProcess {e₀ : Engine} (h : e.Admits b p) (h₀ : e₀.Sound)
    (terms : e₀.SameTerms e) (agree : ∀ u, u ≠ p.uid → e₀.AgreeAt e u) (enrolled : e.Enrolled)
    (coherent : e.index.Coherent) : (e.putProcess p).Sound := by
  have henr : (e.withProcess p).Enrolled := enrolled.frame ⟨rfl, rfl, rfl⟩ rfl fun _ => rfl
  have hterms := terms.trans (putProcess_terms p)
  rw [putProcess_eq_withProcess] at hterms ⊢
  refine h₀.of_agree p.uid hterms ?_
    h.housedAt.updateBundle ?_ henr.updateBundle (coherent_updateBundle coherent)
  · intro u hu
    exact ((agree u hu).trans (withProcess_agreeAt h.free hu)).trans (updateBundle_agreeAt hu)
  · exact h.housedAt.pricedAt_updateBundle h.bundle fun pid q hq hu => h.priority_eq enrolled hq hu

theorem Sound.putProcess (h : e.Sound) {pid : Int} {q : TrackedProcess}
    (hq : e.processes.get? pid = some q) (hpid : p.pid = q.pid) (huid : p.uid = q.uid) :
    (e.putProcess p).Sound := by
  obtain ⟨hqpid, b, hb⟩ := (h.housed q.uid).process pid q hq rfl
  obtain ⟨hbu, hacc, -, hpids⟩ := (h.housed q.uid).bundle b hb
  have hget : e.processes.get? p.pid = some q := by
    rw [hpid, hqpid]
    exact hq
  have hadm : e.Admits b p := by
    rw [← huid] at hb hbu hacc hpids
    refine ⟨hb, hbu, hacc, ?_, ?_, ?_⟩
    · intro pid'
      rw [hpids pid']
      constructor
      · exact Or.inr
      · rintro (he | he)
        · exact ⟨q, by rw [he]; exact hget, huid.symm⟩
        · exact he
    · intro q' hq'
      rw [Option.some.inj (hq'.symm.trans hget)]
      exact huid.symm
    · intro pid' q' hq' hu
      exact ⟨((h.housed p.uid).process pid' q' hq' hu).1,
        (h.priced p.uid).process pid' q' b hq' hu hb⟩
  exact hadm.putProcess h (SameTerms.refl e) (fun u _ => AgreeAt.refl e u) h.enrolled h.coherent

/-! ### Listing a bundle in its account -/

theorem mem_accountRecord (e : Engine) (id u : Int) :
    u ∈ (e.accountRecord id).uids ↔ e.Lists id u := by
  unfold accountRecord Lists
  cases ha : e.accounts.get? id <;> simp

theorem lists_enroll (e : Engine) (uid id u : Int) :
    (e.enroll uid).Lists id u ↔ (accountOf uid = id ∧ u = uid) ∨ e.Lists id u := by
  by_cases hid : accountOf uid = id
  · subst hid
    have hget : (e.enroll uid).accounts.get? (accountOf uid) = some
        { e.accountRecord (accountOf uid) with
          uids := (e.accountRecord (accountOf uid)).uids.insert uid } :=
      Table.get?_insert_self _ _ _
    rw [← mem_accountRecord e]
    unfold Lists
    simp [hget, IdSet.mem_insert]
  · have hget : (e.enroll uid).accounts.get? id = e.accounts.get? id := by
      rw [show (e.enroll uid).accounts = e.accounts.insert (accountOf uid) _ from rfl,
        Table.get?_insert, if_neg hid]
    unfold Lists
    simp [hget, hid]

theorem Enrolled.accountRecord (he : e.Enrolled) (id : Int) :
    (e.accountRecord id).id = id ∧ (e.accountRecord id).isCurrent = (e.current == some id) ∧
      (e.accountRecord id).isPrevious = (e.previous == some id) ∧
      (e.accountRecord id).shift = e.settings.shift := by
  unfold Engine.accountRecord
  cases ha : e.accounts.get? id with
  | none => exact ⟨rfl, rfl, rfl, rfl⟩
  | some a => exact he.record id a ha

theorem Enrolled.enroll (he : e.Enrolled) (uid : Int) (b : Bundle) :
    { e.enroll uid with bundles := e.bundles.insert uid b }.Enrolled := by
  refine ⟨?_, ?_, ?_⟩
  · intro id a ha
    have ha' : (e.accounts.insert (accountOf uid)
        { e.accountRecord (accountOf uid) with
          uids := (e.accountRecord (accountOf uid)).uids.insert uid }).get? id = some a := ha
    rw [Table.get?_insert] at ha'
    by_cases hid : accountOf uid = id
    · rw [if_pos hid] at ha'
      have haa := Option.some.inj ha'
      subst haa
      subst hid
      exact he.accountRecord (accountOf uid)
    · rw [if_neg hid] at ha'
      exact he.record id a ha'
  · intro id a ha
    by_cases hid : accountOf uid = id
    · obtain ⟨c, hc, hmem⟩ := (lists_enroll e uid id uid).mpr (Or.inl ⟨hid, rfl⟩)
      have hac : a = c := Option.some.inj (ha.symm.trans hc)
      exact ⟨uid, by rw [hac]; exact hmem⟩
    · have ha' : e.accounts.get? id = some a := by
        rw [← ha]
        exact (by rw [Table.get?_insert, if_neg hid] :
          (e.accounts.insert (accountOf uid) _).get? id = e.accounts.get? id).symm
      exact he.occupied id a ha'
  · intro id u
    have hlists := lists_enroll e uid id u
    show (e.enroll uid).Lists id u ↔ _
    rw [hlists, he.lists id u, Table.get?_insert]
    by_cases hu : uid = u
    · subst hu
      simp +contextual
    · simp [hu, Ne.symm hu]

/-! ### A new process -/

/-- The bundle of `ev` with its new process in it. -/
def joined (e : Engine) (ev : Event) : Bundle :=
  { e.bundleFor ev with state := .normal, pids := (e.bundleFor ev).pids.insert ev.pid }

/-- `e` with that bundle, listed in its account. -/
def withJoined (e : Engine) (ev : Event) : Engine :=
  { e.enroll ev.targetUid with bundles := e.bundles.insert ev.targetUid (e.joined ev) }

/-- The engine with the process of `ev`, and the journal that goes with it. -/
def addProcess (e : Engine) (ev : Event) (j : Journal) : Engine × Journal :=
  ((e.withJoined ev).putProcess (.start ev.pid ev.targetUid
      (if (e.joined ev).pinned then Level.system else Level.foreground)),
    { (e.enroll ev.targetUid).recordJoined ev j with
      newPids := ((e.enroll ev.targetUid).recordJoined ev j).newPids ++ [ev.pid] })

/-- The bundle is there when it is looked up, so that nobody is turned away. -/
theorem takeIn_eq (e : Engine) (ev : Event) (j : Journal) :
    e.takeIn ev j = conclude (e.addProcess ev j) := by
  have htwice : ((e.bundles.insert ev.targetUid (e.bundleFor ev)).insert ev.targetUid
      (e.joined ev)) = e.bundles.insert ev.targetUid (e.joined ev) :=
    Table.insert_insert _ _ _ _
  unfold takeIn
  simp only [Table.get?_insert_self]
  unfold addProcess withJoined
  rw [← htwice]
  rfl

theorem addProcess_fst (e : Engine) (ev : Event) (j : Journal) : (e.addProcess ev j).1 =
    (e.withJoined ev).putProcess (.start ev.pid ev.targetUid
      (if (e.joined ev).pinned then Level.system else Level.foreground)) := rfl

theorem addProcess_terms (e : Engine) (ev : Event) (j : Journal) :
    e.SameTerms (e.addProcess ev j).1 := by
  have hterms : e.SameTerms (e.withJoined ev) := ⟨rfl, rfl, rfl⟩
  rw [addProcess_fst]
  exact hterms.trans (putProcess_terms _)

theorem bundleFor_of_some {ev : Event} (hb : e.bundles.get? ev.targetUid = some b) :
    e.bundleFor ev = b := by
  unfold bundleFor
  rw [hb]

theorem HousedAt.bundleFor {ev : Event} (hh : e.HousedAt ev.targetUid) :
    (e.bundleFor ev).uid = ev.targetUid ∧ (e.bundleFor ev).account = accountOf ev.targetUid ∧
      ∀ pid, pid ∈ (e.bundleFor ev).pids ↔ e.Tracks ev.targetUid pid := by
  cases hb : e.bundles.get? ev.targetUid with
  | some b =>
    rw [bundleFor_of_some hb]
    obtain ⟨hu, hacc, -, hpids⟩ := hh.bundle b hb
    exact ⟨hu, hacc, hpids⟩
  | none =>
    unfold Engine.bundleFor
    rw [hb]
    refine ⟨rfl, rfl, ?_⟩
    intro pid
    constructor
    · exact fun hpid => absurd hpid (IdSet.not_mem_empty pid)
    · rintro ⟨p, hp, hu⟩
      obtain ⟨-, b, hb'⟩ := hh.process pid p hp hu
      rw [hb] at hb'
      cases hb'

theorem Sound.addProcess (h : e.Sound) {ev : Event} (hfree : e.processes.get? ev.pid = none)
    (j : Journal) : (e.addProcess ev j).1.Sound := by
  obtain ⟨hbu, hacc, hpids⟩ := (h.housed ev.targetUid).bundleFor
  rw [addProcess_fst]
  refine Admits.putProcess (b := e.joined ev) ⟨Table.get?_insert_self _ _ _, hbu, hacc,
    fun pid => ?_, fun q hq => ?_, fun pid q hq hu => ⟨?_, ?_⟩⟩ h ⟨rfl, rfl, rfl⟩
    (fun u hu => ⟨fun _ _ _ => Iff.rfl, ?_, rfl⟩) (h.enrolled.enroll _ _) h.coherent
  · exact IdSet.mem_insert.trans (or_congr_right (hpids pid))
  · exact nomatch hfree.symm.trans hq
  · exact ((h.housed ev.targetUid).process pid q hq hu).1
  · obtain ⟨-, b, hb⟩ := (h.housed ev.targetUid).process pid q hq hu
    have hpin : (e.joined ev).pinned = b.pinned := by
      show (e.bundleFor ev).pinned = b.pinned
      rw [bundleFor_of_some hb]
    rw [(h.priced ev.targetUid).process pid q b hq hu hb]
    simp only [due, hpin]
    rfl
  · exact (Table.get?_insert _ _ _ _).trans (if_neg (Ne.symm hu))

end Engine

end MemoryArbiter
