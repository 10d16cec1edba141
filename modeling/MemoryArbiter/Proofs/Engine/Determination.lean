import MemoryArbiter.Proofs.Lifecycle.Projection

/-! # The lifecycle determines the rest

Whatever a sound engine keeps beside its lifecycle follows from it, from the settings and from the
account in the foreground.  To show that two sound engines are the same one, it is enough to compare
these.
-/

namespace MemoryArbiter

theorem TrackedProcess.eq_of_unpriced {p q : TrackedProcess} (h : p.unpriced = q.unpriced)
    (hpriority : p.priority = q.priority) : p = q := by
  cases p
  cases q
  simp_all [unpriced]

theorem Bundle.eq_of_unpriced {b c : Bundle} (h : b.unpriced = c.unpriced)
    (hpriority : b.priority = c.priority) : b = c := by
  cases b
  cases c
  simp_all [unpriced]

/-- `l'` has the same records under `uid` as `l`. -/
structure Lifecycle.AgreeAt (l l' : Lifecycle) (uid : Int) : Prop where
  bundle : l'.bundles.get? uid = l.bundles.get? uid
  process : ∀ pid p, p.uid = uid → (l'.processes.get? pid = some p ↔ l.processes.get? pid = some p)

theorem Lifecycle.AgreeAt.symm {l l' : Lifecycle} {uid : Int} (h : l.AgreeAt l' uid) :
    l'.AgreeAt l uid :=
  ⟨h.bundle.symm, fun pid p hu => (h.process pid p hu).symm⟩

theorem Lifecycle.agreeAt_of_eq {l l' : Lifecycle} (hbundles : l'.bundles = l.bundles)
    (hprocesses : l'.processes = l.processes) (uid : Int) : l.AgreeAt l' uid := by
  refine ⟨by rw [hbundles], fun pid p _ => ?_⟩
  rw [hprocesses]

namespace Engine

variable {e e' : Engine} {uid : Int}

theorem SameTerms.symm (h : e.SameTerms e') : e'.SameTerms e :=
  ⟨h.settings.symm, h.current.symm, h.previous.symm⟩

/-! ### Uid by uid -/

theorem agreeAt_of_lifecycle (hl : e'.lifecycle = e.lifecycle) (uid : Int) :
    e.lifecycle.AgreeAt e'.lifecycle uid :=
  Lifecycle.agreeAt_of_eq (congrArg Lifecycle.bundles hl) (congrArg Lifecycle.processes hl) uid

theorem bundle?_of_lifecycle (ha : e.lifecycle.AgreeAt e'.lifecycle uid) {b : Bundle}
    (hb : e.bundles.get? uid = some b) :
    ∃ c, e'.bundles.get? uid = some c ∧ c.unpriced = b.unpriced := by
  have hsame := ha.bundle
  rw [lifecycle_bundle?, lifecycle_bundle?, hb] at hsame
  exact Option.map_eq_some_iff.mp hsame

theorem process?_of_lifecycle (ha : e.lifecycle.AgreeAt e'.lifecycle uid) {pid : Int}
    {p : TrackedProcess} (hp : e.processes.get? pid = some p) (hu : p.uid = uid) :
    ∃ q, e'.processes.get? pid = some q ∧ q.unpriced = p.unpriced := by
  have hsame := ha.process pid p.unpriced hu
  rw [lifecycle_process?, lifecycle_process?, hp] at hsame
  exact Option.map_eq_some_iff.mp (hsame.mpr rfl)

theorem due_of_unpriced {b c : Bundle} {p q : TrackedProcess} (hpin : c.pinned = b.pinned)
    (hprocess : q.unpriced = p.unpriced) : e.due c q = e.due b p := by
  have huid : q.uid = p.uid := (congrArg TrackedProcess.uid hprocess :)
  have hlevel : q.level = p.level := (congrArg TrackedProcess.level hprocess :)
  unfold due
  rw [hpin, hlevel, huid]

theorem due_of_current (hsettings : e'.settings = e.settings) (hcurrent : e'.current = e.current)
    (b : Bundle) (p : TrackedProcess) : e'.due b p = e.due b p := by
  unfold due dueOffset
  rw [hsettings, hcurrent]

theorem Sound.process?_of_agreeAt (h : e.Sound) (h' : e'.Sound)
    (hdue : ∀ b p, e.bundles.get? uid = some b → p.uid = uid → e'.due b p = e.due b p)
    (ha : e.lifecycle.AgreeAt e'.lifecycle uid) {pid : Int} {p : TrackedProcess}
    (hp : e.processes.get? pid = some p) (hu : p.uid = uid) : e'.processes.get? pid = some p := by
  obtain ⟨-, b, hb⟩ := (h.housed uid).process pid p hp hu
  obtain ⟨c, hc, hbundle⟩ := bundle?_of_lifecycle ha hb
  obtain ⟨q, hq, hprocess⟩ := process?_of_lifecycle ha hp hu
  have huid : q.uid = p.uid := (congrArg TrackedProcess.uid hprocess :)
  have hpriority : q.priority = p.priority := by
    rw [(h.priced uid).process pid p b hp hu hb,
      (h'.priced uid).process pid q c hq (huid.trans hu) hc, ← hdue b p hb hu]
    exact due_of_unpriced (congrArg Bundle.pinned hbundle :) hprocess
  rw [hq, TrackedProcess.eq_of_unpriced hprocess hpriority]

theorem Least.of_process {m : Int} (hm : e.Least uid m)
    (hp : ∀ pid p, p.uid = uid → (e'.processes.get? pid = some p ↔ e.processes.get? pid = some p)) :
    e'.Least uid m := by
  obtain ⟨pid, p, hget, hu, hpm⟩ := hm.attained
  exact ⟨⟨pid, p, (hp pid p hu).mpr hget, hu, hpm⟩,
    fun qid q hq hv => hm.le qid q ((hp qid q hv).mp hq) hv⟩

/-- Where two sound engines have the same lifecycle and the same priorities are due, they have the same
records. -/
theorem Sound.agreeAt_of_due (h : e.Sound) (h' : e'.Sound)
    (hdue : ∀ b p, e.bundles.get? uid = some b → p.uid = uid → e'.due b p = e.due b p)
    (ha : e.lifecycle.AgreeAt e'.lifecycle uid) : e.AgreeAt e' uid := by
  have hdue' : ∀ c p, e'.bundles.get? uid = some c → p.uid = uid → e.due c p = e'.due c p := by
    intro c p hc hp
    obtain ⟨b, hb, hunpriced⟩ := bundle?_of_lifecycle ha.symm hc
    have hpin : b.pinned = c.pinned := (congrArg Bundle.pinned hunpriced :)
    rw [← due_of_unpriced hpin (rfl : p.unpriced = p.unpriced), ← hdue b p hb hp]
    exact due_of_unpriced hpin rfl
  have hprocess : ∀ pid p, p.uid = uid →
      (e'.processes.get? pid = some p ↔ e.processes.get? pid = some p) := fun pid p hu =>
    ⟨fun hp => h'.process?_of_agreeAt h hdue' ha.symm hp hu,
      fun hp => h.process?_of_agreeAt h' hdue ha hp hu⟩
  have hbundle : e'.bundles.get? uid = e.bundles.get? uid := by
    cases hb : e.bundles.get? uid with
    | some b =>
      obtain ⟨c, hc, hunpriced⟩ := bundle?_of_lifecycle ha hb
      have hleast := ((h.priced uid).bundle b hb).of_process hprocess
      have hpriority := ((h'.priced uid).bundle c hc).unique hleast
      rw [hc, Bundle.eq_of_unpriced hunpriced hpriority]
    | none =>
      refine Option.eq_none_iff_forall_ne_some.mpr fun c hc => ?_
      obtain ⟨b, hb', -⟩ := bundle?_of_lifecycle ha.symm hc
      exact nomatch hb.symm.trans hb'
  refine ⟨hprocess, hbundle, ?_⟩
  rw [(h'.priced uid).rank, (h.priced uid).rank, hbundle]

theorem Sound.agreeAt (h : e.Sound) (h' : e'.Sound) (hsettings : e'.settings = e.settings)
    (hcurrent : e'.current = e.current) (ha : e.lifecycle.AgreeAt e'.lifecycle uid) :
    e.AgreeAt e' uid :=
  h.agreeAt_of_due h' (fun b p _ _ => due_of_current hsettings hcurrent b p) ha

/-- What is pinned has the same priority whatever account is in the foreground. -/
theorem Sound.agreeAt_of_pinned (h : e.Sound) (h' : e'.Sound) {b : Bundle}
    (hb : e.bundles.get? uid = some b) (hpin : b.pinned = true)
    (ha : e.lifecycle.AgreeAt e'.lifecycle uid) : e.AgreeAt e' uid := by
  refine h.agreeAt_of_due h' (fun c p hc _ => ?_) ha
  obtain rfl := Option.some.inj (hb.symm.trans hc)
  unfold due
  rw [if_pos hpin, if_pos hpin]

/-! ### All uids -/

theorem processes_ext (h : ∀ uid, e.AgreeAt e' uid) : e'.processes = e.processes := by
  apply Table.ext_get?
  intro pid
  cases hp : e.processes.get? pid with
  | some p => exact ((h p.uid).process pid p rfl).mpr hp
  | none =>
    refine Option.eq_none_iff_forall_ne_some.mpr fun q hq => ?_
    exact nomatch hp.symm.trans (((h q.uid).process pid q rfl).mp hq)

theorem Enrolled.lists_iff (h : e.Enrolled) {id : Int} {a : Account}
    (ha : e.accounts.get? id = some a) (uid : Int) :
    uid ∈ a.uids ↔ accountOf uid = id ∧ (e.bundles.get? uid).isSome = true := by
  rw [← h.lists id uid]
  constructor
  · exact fun hu => ⟨a, ha, hu⟩
  · rintro ⟨c, hc, hu⟩
    rwa [Option.some.inj (ha.symm.trans hc)]

/-- An account follows from its bundles and from the foreground. -/
theorem Enrolled.account?_eq (h : e.Enrolled) (h' : e'.Enrolled) (terms : e.SameTerms e') {id : Int}
    (hb : ∀ uid, accountOf uid = id →
      (e'.bundles.get? uid).isSome = (e.bundles.get? uid).isSome) {a : Account}
    (ha : e.accounts.get? id = some a) : e'.accounts.get? id = some a := by
  -- one bundle of the account is enough for its record
  obtain ⟨uid, hu⟩ := h.occupied id a ha
  obtain ⟨hid, hlive⟩ := (h.lists_iff ha uid).mp hu
  rw [← hb uid hid] at hlive
  obtain ⟨c, hc, -⟩ := (h'.lists id uid).mpr ⟨hid, hlive⟩
  have huids : c.uids = a.uids := by
    apply IdSet.ext_mem
    intro u
    rw [h.lists_iff ha, h'.lists_iff hc]
    exact and_congr_right fun hu => by rw [hb u hu]
  obtain ⟨haid, hcurrent, hprevious, hshift⟩ := h.record id a ha
  obtain ⟨hcid, hcurrent', hprevious', hshift'⟩ := h'.record id c hc
  rw [terms.current] at hcurrent'
  rw [terms.previous] at hprevious'
  rw [terms.settings] at hshift'
  rw [hc]
  cases a
  cases c
  simp_all

theorem Enrolled.account?_congr (h : e.Enrolled) (h' : e'.Enrolled) (terms : e.SameTerms e') {id : Int}
    (hb : ∀ uid, accountOf uid = id →
      (e'.bundles.get? uid).isSome = (e.bundles.get? uid).isSome) :
    e'.accounts.get? id = e.accounts.get? id := by
  cases ha : e.accounts.get? id with
  | some a => exact h.account?_eq h' terms hb ha
  | none =>
    refine Option.eq_none_iff_forall_ne_some.mpr fun c hc => ?_
    have hback := h'.account?_eq h terms.symm (fun uid hu => (hb uid hu).symm) hc
    exact nomatch ha.symm.trans hback

theorem Enrolled.accounts_eq (h : e.Enrolled) (h' : e'.Enrolled) (terms : e.SameTerms e')
    (hb : e'.bundles = e.bundles) : e'.accounts = e.accounts := by
  apply Table.ext_get?
  intro id
  apply h.account?_congr h' terms
  intro uid _
  rw [hb]

/-- Two sound engines with the same processes, bundles and tokens below the priorities are one. -/
theorem Sound.eq_of_agreeAt (h : e.Sound) (h' : e'.Sound) (terms : e.SameTerms e')
    (ha : ∀ uid, e.lifecycle.AgreeAt e'.lifecycle uid) (htoken : e'.lastToken = e.lastToken) :
    e' = e := by
  have hagree : ∀ uid, e.AgreeAt e' uid := fun uid =>
    h.agreeAt h' terms.settings terms.current (ha uid)
  have hprocesses := processes_ext hagree
  have hbundles : e'.bundles = e.bundles := Table.ext_get? fun uid => (hagree uid).bundle
  have haccounts := h.enrolled.accounts_eq h'.enrolled terms hbundles
  have hindex : e'.index = e.index := h'.coherent.ext h.coherent fun uid => (hagree uid).rank
  obtain ⟨hsettings, hcurrent, hprevious⟩ := terms
  cases e
  cases e'
  simp_all

theorem Sound.eq_of_lifecycle (h : e.Sound) (h' : e'.Sound) (terms : e.SameTerms e')
    (hl : e'.lifecycle = e.lifecycle) : e' = e :=
  h.eq_of_agreeAt h' terms (agreeAt_of_lifecycle hl) (congrArg Lifecycle.lastToken hl)

/-! ### Boosts are free -/

/-- The engine with other boosts, made out of the old ones, and another token counter. -/
def reboost (e : Engine) (f : Int → Option Boost → Option Boost) (token : Nat) : Engine :=
  { e with
    processes := e.processes.map fun p => { p with boost := f p.pid p.boost }
    lastToken := token }

section

variable {f : Int → Option Boost → Option Boost} {token : Nat}

theorem reboost_process? (e : Engine) (pid : Int) : (e.reboost f token).processes.get? pid =
    (e.processes.get? pid).map fun p => { p with boost := f p.pid p.boost } :=
  Table.get?_map _ _ _

theorem reboost_eq_some {pid : Int} {q : TrackedProcess}
    (hq : (e.reboost f token).processes.get? pid = some q) :
    ∃ p, e.processes.get? pid = some p ∧ { p with boost := f p.pid p.boost } = q := by
  rw [reboost_process?] at hq
  exact Option.map_eq_some_iff.mp hq

theorem reboost_of_some {pid : Int} {p : TrackedProcess} (hp : e.processes.get? pid = some p) :
    (e.reboost f token).processes.get? pid = some { p with boost := f p.pid p.boost } := by
  rw [reboost_process?, hp]
  rfl

theorem reboost_of_same (hf : ∀ pid p, e.processes.get? pid = some p → f p.pid p.boost = p.boost) :
    e.reboost f e.lastToken = e := by
  have hprocesses : (e.reboost f e.lastToken).processes = e.processes := by
    apply Table.ext_get?
    intro pid
    rw [reboost_process?]
    cases hp : e.processes.get? pid with
    | none => rfl
    | some p => rw [Option.map_some, hf pid p hp]
  cases e
  exact congrArg (Engine.mk _ · _ _ _ _ _ _) hprocesses

theorem reboost_tracks_iff {uid pid : Int} : (e.reboost f token).Tracks uid pid ↔ e.Tracks uid pid := by
  constructor
  · rintro ⟨q, hq, rfl⟩
    obtain ⟨p, hp, rfl⟩ := reboost_eq_some hq
    exact ⟨p, hp, rfl⟩
  · rintro ⟨p, hp, rfl⟩
    exact ⟨_, reboost_of_some hp, rfl⟩

theorem reboost_terms (e : Engine) : e.SameTerms (e.reboost f token) := ⟨rfl, rfl, rfl⟩

/-- Nothing that makes an engine sound is about boosts. -/
theorem Sound.reboost (h : e.Sound) : (e.reboost f token).Sound := by
  have hterms : e.SameTerms (e.reboost f token) := reboost_terms e
  refine ⟨⟨fun uid => ⟨?_, ?_⟩, h.enrolled.frame hterms rfl fun _ => rfl, h.coherent, h.apart⟩,
    fun uid => ⟨?_, ?_, (h.priced uid).rank⟩⟩
  · intro pid q hq hu
    obtain ⟨p, hp, rfl⟩ := reboost_eq_some hq
    exact (h.housed uid).process pid p hp hu
  · intro b hb
    obtain ⟨hbu, hacc, hne, hpids⟩ := (h.housed uid).bundle b hb
    exact ⟨hbu, hacc, hne, fun pid => (hpids pid).trans reboost_tracks_iff.symm⟩
  · intro pid q b hq hu hb
    obtain ⟨p, hp, rfl⟩ := reboost_eq_some hq
    exact (h.priced uid).process pid p b hp hu hb
  · intro b hb
    obtain ⟨⟨pid, p, hp, hu, hprio⟩, hle⟩ := (h.priced uid).bundle b hb
    refine ⟨⟨pid, _, reboost_of_some hp, hu, hprio⟩, ?_⟩
    intro qid q hq hv
    obtain ⟨p, hp, rfl⟩ := reboost_eq_some hq
    exact hle qid p hp hv

theorem lifecycle_reboost (e : Engine) : (e.reboost f token).lifecycle =
    { e.lifecycle with
      processes := e.lifecycle.processes.map fun p => { p with boost := f p.pid p.boost }
      lastToken := token } := by
  have hprocesses : (e.reboost f token).lifecycle.processes =
      e.lifecycle.processes.map fun p => { p with boost := f p.pid p.boost } := by
    apply Table.ext_get?
    intro pid
    rw [lifecycle_process?, reboost_process?, Table.get?_map, lifecycle_process?, Option.map_map,
      Option.map_map]
    rfl
  rw [← hprocesses]
  rfl

end

end Engine

end MemoryArbiter
