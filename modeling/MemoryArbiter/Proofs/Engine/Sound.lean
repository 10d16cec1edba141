import MemoryArbiter.Engine.Step
import MemoryArbiter.Proofs.Index.Coherence

/-! # Sound engines

What holds between the tables of an engine whenever it is at rest.  Most of it can be said uid by
uid: `HousedAt` ties the processes of a uid to its bundle, `PricedAt` says that their priorities are
due.  A step works on one uid, or on a few, and leaves the rest as it is (`AgreeAt`), so that it has
to be looked at only where it works.  `Enrolled` ties the bundles to the accounts.
-/

namespace MemoryArbiter

/-- What is added to the levels in the foreground account. -/
def Settings.offset (s : Settings) : Int := wrapInt32 (-s.shift)

namespace Engine

/-! ### What is due -/

/-- The process `pid` is tracked under `uid`. -/
def Tracks (e : Engine) (uid pid : Int) : Prop :=
  ∃ p, e.processes.get? pid = some p ∧ p.uid = uid

/-- What has to be added to the levels in the account `id`. -/
def dueOffset (e : Engine) (id : Int) : Int :=
  if e.current = some id then e.settings.offset else 0

/-- The priority that `p` has to have as a process of `b`. -/
def due (e : Engine) (b : Bundle) (p : TrackedProcess) : Int :=
  if b.pinned then Level.system
  else moved p.level (e.dueOffset (accountOf p.uid)) e.settings.clamp

/-- `m` is the least priority of a process of `uid`. -/
structure Least (e : Engine) (uid m : Int) : Prop where
  attained : ∃ pid p, e.processes.get? pid = some p ∧ p.uid = uid ∧ p.priority = m
  le : ∀ pid p, e.processes.get? pid = some p → p.uid = uid → m ≤ p.priority

theorem Least.unique {e : Engine} {uid m n : Int} (hm : e.Least uid m) (hn : e.Least uid n) :
    m = n := by
  obtain ⟨pid, p, hp, hu, rfl⟩ := hm.attained
  obtain ⟨qid, q, hq, hv, rfl⟩ := hn.attained
  have h₁ := hm.le qid q hq hv
  have h₂ := hn.le pid p hp hu
  omega

/-! ### Soundness -/

/-- The processes of `uid` are exactly those that its bundle lists. -/
structure HousedAt (e : Engine) (uid : Int) : Prop where
  process : ∀ pid p, e.processes.get? pid = some p → p.uid = uid →
    p.pid = pid ∧ ∃ b, e.bundles.get? uid = some b
  bundle : ∀ b, e.bundles.get? uid = some b → b.uid = uid ∧ b.account = accountOf uid ∧
    (∃ pid, pid ∈ b.pids) ∧ ∀ pid, pid ∈ b.pids ↔ e.Tracks uid pid

/-- The processes of `uid` have the priorities that are due, its bundle has the least of them, and
the index has that of the bundle. -/
structure PricedAt (e : Engine) (uid : Int) : Prop where
  process : ∀ pid p b, e.processes.get? pid = some p → p.uid = uid →
    e.bundles.get? uid = some b → p.priority = e.due b p
  bundle : ∀ b, e.bundles.get? uid = some b → e.Least uid b.priority
  rank : e.index.get? uid = (e.bundles.get? uid).map Bundle.priority

/-- The account `id` lists `uid`. -/
def Lists (e : Engine) (id uid : Int) : Prop := ∃ a, e.accounts.get? id = some a ∧ uid ∈ a.uids

/-- The accounts list the bundles that there are, and know which account is in the foreground. -/
structure Enrolled (e : Engine) : Prop where
  record : ∀ id a, e.accounts.get? id = some a → a.id = id ∧ a.isCurrent = (e.current == some id) ∧
    a.isPrevious = (e.previous == some id) ∧ a.shift = e.settings.shift
  occupied : ∀ id a, e.accounts.get? id = some a → ∃ uid, uid ∈ a.uids
  lists : ∀ id uid, e.Lists id uid ↔ accountOf uid = id ∧ (e.bundles.get? uid).isSome = true

/-- Everything is in its place; the priorities may be those of a former foreground. -/
structure Arranged (e : Engine) : Prop where
  housed : ∀ uid, e.HousedAt uid
  enrolled : e.Enrolled
  coherent : e.index.Coherent
  apart : ∀ id, e.current = some id → e.previous ≠ some id

structure Sound (e : Engine) : Prop extends e.Arranged where
  priced : ∀ uid, e.PricedAt uid

/-! ### Frames -/

/-- `e'` has the same records under `uid` as `e`. -/
structure AgreeAt (e e' : Engine) (uid : Int) : Prop where
  process : ∀ pid p, p.uid = uid → (e'.processes.get? pid = some p ↔ e.processes.get? pid = some p)
  bundle : e'.bundles.get? uid = e.bundles.get? uid
  rank : e'.index.get? uid = e.index.get? uid

/-- `e'` has the settings and the foreground of `e`. -/
structure SameTerms (e e' : Engine) : Prop where
  settings : e'.settings = e.settings
  current : e'.current = e.current
  previous : e'.previous = e.previous

variable {e e' e'' : Engine} {uid : Int}

theorem SameTerms.refl (e : Engine) : e.SameTerms e := ⟨rfl, rfl, rfl⟩

theorem SameTerms.trans (h : e.SameTerms e') (h' : e'.SameTerms e'') : e.SameTerms e'' :=
  ⟨h'.settings.trans h.settings, h'.current.trans h.current, h'.previous.trans h.previous⟩

theorem AgreeAt.refl (e : Engine) (uid : Int) : e.AgreeAt e uid :=
  ⟨fun _ _ _ => Iff.rfl, rfl, rfl⟩

theorem AgreeAt.trans (h : e.AgreeAt e' uid) (h' : e'.AgreeAt e'' uid) : e.AgreeAt e'' uid :=
  ⟨fun pid p hp => (h'.process pid p hp).trans (h.process pid p hp), h'.bundle.trans h.bundle,
    h'.rank.trans h.rank⟩

theorem AgreeAt.tracks (h : e.AgreeAt e' uid) (pid : Int) : e'.Tracks uid pid ↔ e.Tracks uid pid := by
  constructor
  · rintro ⟨p, hp, hu⟩
    exact ⟨p, (h.process pid p hu).mp hp, hu⟩
  · rintro ⟨p, hp, hu⟩
    exact ⟨p, (h.process pid p hu).mpr hp, hu⟩

theorem AgreeAt.least (h : e.AgreeAt e' uid) {m : Int} (hm : e.Least uid m) : e'.Least uid m := by
  obtain ⟨pid, p, hp, hu, hpm⟩ := hm.attained
  refine ⟨⟨pid, p, (h.process pid p hu).mpr hp, hu, hpm⟩, ?_⟩
  intro qid q hq hv
  exact hm.le qid q ((h.process qid q hv).mp hq) hv

theorem HousedAt.frame (hh : e.HousedAt uid) (h : e.AgreeAt e' uid) : e'.HousedAt uid := by
  constructor
  · intro pid p hp hu
    rw [h.bundle]
    exact hh.process pid p ((h.process pid p hu).mp hp) hu
  · intro b hb
    rw [h.bundle] at hb
    obtain ⟨huid, hacc, hne, hpids⟩ := hh.bundle b hb
    exact ⟨huid, hacc, hne, fun pid => (hpids pid).trans (h.tracks pid).symm⟩

theorem due_congr (hoff : e'.dueOffset (accountOf uid) = e.dueOffset (accountOf uid))
    (hclamp : e'.settings.clamp = e.settings.clamp) (b : Bundle) {p : TrackedProcess}
    (hp : p.uid = uid) : e'.due b p = e.due b p := by
  subst hp
  unfold due
  rw [hoff, hclamp]

theorem PricedAt.frame (hp : e.PricedAt uid) (h : e.AgreeAt e' uid)
    (hoff : e'.dueOffset (accountOf uid) = e.dueOffset (accountOf uid))
    (hclamp : e'.settings.clamp = e.settings.clamp) : e'.PricedAt uid := by
  refine ⟨?_, ?_, ?_⟩
  · intro pid p b hg hu hb
    rw [h.bundle] at hb
    rw [due_congr hoff hclamp b hu]
    exact hp.process pid p b ((h.process pid p hu).mp hg) hu hb
  · intro b hb
    rw [h.bundle] at hb
    exact h.least (hp.bundle b hb)
  · rw [h.rank, h.bundle]
    exact hp.rank

theorem SameTerms.dueOffset (h : e.SameTerms e') (id : Int) : e'.dueOffset id = e.dueOffset id := by
  unfold Engine.dueOffset
  rw [h.settings, h.current]

theorem Enrolled.frame (he : e.Enrolled) (h : e.SameTerms e') (hacc : e'.accounts = e.accounts)
    (hb : ∀ uid, (e'.bundles.get? uid).isSome = (e.bundles.get? uid).isSome) : e'.Enrolled := by
  refine ⟨?_, ?_, ?_⟩
  · intro id a ha
    rw [hacc] at ha
    rw [h.settings, h.current, h.previous]
    exact he.record id a ha
  · intro id a ha
    rw [hacc] at ha
    exact he.occupied id a ha
  · intro id uid
    rw [hb uid]
    unfold Lists
    rw [hacc]
    exact he.lists id uid

/-- A step that works on the records of one uid has to be looked at only there. -/
theorem Arranged.of_agree (h : e.Arranged) (uid : Int) (terms : e.SameTerms e')
    (agree : ∀ u, u ≠ uid → e.AgreeAt e' u) (housed : e'.HousedAt uid) (enrolled : e'.Enrolled)
    (coherent : e'.index.Coherent) : e'.Arranged := by
  refine ⟨?_, enrolled, coherent, ?_⟩
  · intro u
    by_cases hu : u = uid
    · rw [hu]
      exact housed
    · exact (h.housed u).frame (agree u hu)
  · intro id hid
    rw [terms.current] at hid
    rw [terms.previous]
    exact h.apart id hid

theorem Sound.of_agree (h : e.Sound) (uid : Int) (terms : e.SameTerms e')
    (agree : ∀ u, u ≠ uid → e.AgreeAt e' u) (housed : e'.HousedAt uid) (priced : e'.PricedAt uid)
    (enrolled : e'.Enrolled) (coherent : e'.index.Coherent) : e'.Sound := by
  refine ⟨h.toArranged.of_agree uid terms agree housed enrolled coherent, ?_⟩
  intro u
  by_cases hu : u = uid
  · rw [hu]
    exact priced
  · exact (h.priced u).frame (agree u hu) (terms.dueOffset _)
      (congrArg Settings.clamp terms.settings)

theorem sound_new (settings : Settings) : (new settings).Sound := by
  refine ⟨⟨fun uid => ⟨?_, ?_⟩,
    ⟨?_, ?_, ?_⟩, Index.coherent_empty,
    ?_⟩, fun uid => ⟨?_, ?_, rfl⟩⟩
  · intro pid p hp
    cases hp
  · intro b hb
    cases hb
  · intro id a ha
    cases ha
  · intro id a ha
    cases ha
  · intro id uid
    constructor
    · rintro ⟨a, ha, -⟩
      cases ha
    · rintro ⟨-, hb⟩
      cases hb
  · intro id hid
    cases hid
  · intro pid p b hp
    cases hp
  · intro b hb
    cases hb

end Engine

end MemoryArbiter
