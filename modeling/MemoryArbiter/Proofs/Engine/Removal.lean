import MemoryArbiter.Engine.Step
import MemoryArbiter.Proofs.Engine.Pricing

/-! # Taking processes out

`Engine.dropProcess` ends in one of three ways: the bundle is gone with its last process, it is
recomputed, or it is left as it is because the process was not its most important one.
-/

namespace MemoryArbiter

/-- `b` without the process `pid`. -/
def Bundle.without (b : Bundle) (pid : Int) : Bundle := { b with pids := Table.erase b.pids pid }

namespace Engine

variable {e : Engine} {uid pid : Int} {b : Bundle} {p : TrackedProcess}

/-! ### Taking a bundle off its account -/

theorem delist_eq (e : Engine) (id uid : Int) :
    e.delist id uid = { e with accounts := (e.delist id uid).accounts } := by
  unfold delist
  cases e.accounts.get? id with
  | none => rfl
  | some a =>
    by_cases hempty : (Table.erase a.uids uid).isEmpty = true <;> simp [hempty]

theorem delist_get? (e : Engine) (id uid id' : Int) : (e.delist id uid).accounts.get? id' =
    if id = id' then
      ((e.accounts.get? id').map fun a => { a with uids := Table.erase a.uids uid }).filter
        fun a => !a.uids.isEmpty
    else e.accounts.get? id' := by
  unfold delist
  cases ha : e.accounts.get? id with
  | none =>
    by_cases hid : id = id'
    · subst hid
      simp [ha]
    · simp [hid]
  | some a =>
    by_cases hempty : (Table.erase a.uids uid).isEmpty = true
    · by_cases hid : id = id'
      · subst hid
        simp [ha, hempty, Option.filter_some]
      · simp [hempty, Table.get?_erase, hid]
    · by_cases hid : id = id'
      · subst hid
        simp [ha, hempty, Option.filter_some]
      · simp [hempty, Table.get?_insert, hid]

/-- An account that is left is a former one without `uid`, and not empty. -/
theorem delist_get?_self {id : Int} {a : Account}
    (ha : (e.delist id uid).accounts.get? id = some a) :
    ∃ a₀, e.accounts.get? id = some a₀ ∧ a = { a₀ with uids := Table.erase a₀.uids uid } ∧
      ∃ u, u ∈ a.uids := by
  rw [delist_get?, if_pos rfl, Option.filter_eq_some_iff, Option.map_eq_some_iff] at ha
  obtain ⟨⟨a₀, ha₀, rfl⟩, hne⟩ := ha
  exact ⟨a₀, ha₀, rfl, IdSet.exists_mem_of_not_isEmpty (by simpa using hne)⟩

theorem lists_delist (e : Engine) (id uid id' u : Int) :
    (e.delist id uid).Lists id' u ↔ e.Lists id' u ∧ ¬ (id' = id ∧ u = uid) := by
  by_cases hid : id = id'
  · subst hid
    constructor
    · rintro ⟨a, ha, hu⟩
      obtain ⟨a₀, ha₀, rfl, -⟩ := delist_get?_self ha
      obtain ⟨hne, hu⟩ := IdSet.mem_erase.mp hu
      exact ⟨⟨a₀, ha₀, hu⟩, fun h => hne h.2⟩
    · rintro ⟨⟨a, ha, hu⟩, hne⟩
      have hmem : u ∈ (Table.erase a.uids uid : IdSet) :=
        IdSet.mem_erase.mpr ⟨fun h => hne ⟨rfl, h⟩, hu⟩
      refine ⟨{ a with uids := Table.erase a.uids uid }, ?_, hmem⟩
      rw [delist_get?, if_pos rfl, ha]
      refine Option.filter_eq_some_iff.mpr ⟨rfl, ?_⟩
      rw [Bool.not_eq_true']
      exact Bool.eq_false_iff.mpr fun hempty => IdSet.isEmpty_iff.mp hempty u hmem
  · unfold Lists
    rw [delist_get?, if_neg hid]
    exact ⟨fun h => ⟨h, fun h' => hid h'.1.symm⟩, fun h => h.1⟩

theorem dropBundle_eq (e : Engine) (b : Bundle) : e.dropBundle b =
    { e with
      bundles := e.bundles.erase b.uid
      index := (e.index.take b.uid).1
      accounts := (e.dropBundle b).accounts } := by
  unfold dropBundle
  rw [delist_eq]

theorem Enrolled.dropBundle (he : e.Enrolled) (hacc : b.account = accountOf b.uid) :
    (e.dropBundle b).Enrolled := by
  have hlists : ∀ id u, (e.dropBundle b).Lists id u ↔ e.Lists id u ∧ ¬ (id = b.account ∧ u = b.uid) :=
    fun id u => lists_delist _ b.account b.uid id u
  have hget : ∀ id a, (e.dropBundle b).accounts.get? id = some a → ∃ a₀,
      e.accounts.get? id = some a₀ ∧ a = { a₀ with uids := a.uids } ∧ ∃ u, u ∈ a.uids := by
    intro id a ha
    by_cases hid : b.account = id
    · subst hid
      obtain ⟨a₀, ha₀, rfl, hu⟩ := delist_get?_self ha
      exact ⟨a₀, ha₀, rfl, hu⟩
    · unfold Engine.dropBundle at ha
      rw [delist_get?, if_neg hid] at ha
      exact ⟨a, ha, rfl, he.occupied id a ha⟩
  have hbundles : (e.dropBundle b).bundles = e.bundles.erase b.uid := by rw [dropBundle_eq]
  refine ⟨?_, ?_, ?_⟩
  · intro id a ha
    obtain ⟨a₀, ha₀, haa, -⟩ := hget id a ha
    rw [dropBundle_eq, haa]
    exact he.record id a₀ ha₀
  · intro id a ha
    obtain ⟨-, -, -, hu⟩ := hget id a ha
    exact hu
  · intro id u
    rw [hlists, he.lists, hbundles, Table.get?_erase, hacc]
    by_cases hu : b.uid = u
    · subst hu
      rw [if_pos rfl]
      constructor
      · exact fun h => absurd ⟨h.1.1.symm, rfl⟩ h.2
      · exact fun h => nomatch h.2
    · simp [hu, Ne.symm hu]

/-! ### One process -/

/-- `e` without the process `pid`, which its bundle `b` does not list any more. -/
def without (e : Engine) (b : Bundle) (pid : Int) : Engine :=
  { e with
    processes := e.processes.erase pid
    bundles := e.bundles.insert b.uid (b.without pid) }

theorem without_agreeAt (hp : e.processes.get? pid = some p) (hu : p.uid = b.uid) {u : Int}
    (hne : u ≠ b.uid) : e.AgreeAt (e.without b pid) u := by
  refine ⟨?_, ?_, rfl⟩
  · intro qid q hq
    show (e.processes.erase pid).get? qid = some q ↔ _
    rw [Table.get?_erase]
    by_cases hpid : pid = qid
    · subst hpid
      rw [if_pos rfl]
      constructor
      · exact fun h => nomatch h
      · intro h
        have hpq : p = q := Option.some.inj (hp.symm.trans h)
        exact absurd (hq.symm.trans (hpq ▸ hu)) hne
    · rw [if_neg hpid]
  · exact (Table.get?_insert _ _ _ _).trans (if_neg (Ne.symm hne))

theorem without_get?_self (hbu : b.uid = uid) :
    (e.without b pid).bundles.get? uid = some (b.without pid) := by
  rw [← hbu]
  exact Table.get?_insert_self _ _ _

theorem without_cases {qid : Int} {q : TrackedProcess}
    (hq : (e.without b pid).processes.get? qid = some q) :
    qid ≠ pid ∧ e.processes.get? qid = some q := by
  have hq' : (e.processes.erase pid).get? qid = some q := hq
  rw [Table.get?_erase] at hq'
  by_cases hpid : pid = qid
  · rw [if_pos hpid] at hq'
    cases hq'
  · rw [if_neg hpid] at hq'
    exact ⟨Ne.symm hpid, hq'⟩

theorem without_tracks (qid : Int) :
    (e.without b pid).Tracks uid qid ↔ qid ≠ pid ∧ e.Tracks uid qid := by
  constructor
  · rintro ⟨q, hq, hu⟩
    obtain ⟨hne, hq⟩ := without_cases hq
    exact ⟨hne, q, hq, hu⟩
  · rintro ⟨hne, q, hq, hu⟩
    refine ⟨q, ?_, hu⟩
    exact (Table.get?_erase _ _ _).trans ((if_neg (Ne.symm hne)).trans hq)

theorem HousedAt.without (hh : e.HousedAt uid) (hb : e.bundles.get? uid = some b)
    (hne : ∃ qid, qid ∈ (b.without pid).pids) : (e.without b pid).HousedAt uid := by
  obtain ⟨hbu, hacc, -, hpids⟩ := hh.bundle b hb
  have hget : (e.without b pid).bundles.get? uid = some (b.without pid) := without_get?_self hbu
  constructor
  · intro qid q hq hu
    obtain ⟨-, hq⟩ := without_cases hq
    exact ⟨(hh.process qid q hq hu).1, b.without pid, hget⟩
  · intro c hc
    have hcb : b.without pid = c := Option.some.inj (hget.symm.trans hc)
    subst hcb
    refine ⟨hbu, hacc, hne, ?_⟩
    intro qid
    rw [without_tracks, ← hpids qid]
    exact IdSet.mem_erase

theorem PricedAt.due_without (hp : e.PricedAt uid) (hb : e.bundles.get? uid = some b) {qid : Int}
    {q : TrackedProcess} (hq : (e.without b pid).processes.get? qid = some q) (hu : q.uid = uid) :
    q.priority = (e.without b pid).due (b.without pid) q :=
  hp.process qid q b (without_cases hq).2 hu hb

/-- A process that is less important than its bundle may go without any recomputation. -/
theorem PricedAt.without (hpr : e.PricedAt uid) (hh : e.HousedAt uid)
    (hb : e.bundles.get? uid = some b) (hp : e.processes.get? pid = some p)
    (hlt : b.priority < p.priority) : (e.without b pid).PricedAt uid := by
  obtain ⟨hbu, -⟩ := hh.bundle b hb
  have hget : (e.without b pid).bundles.get? uid = some (b.without pid) := without_get?_self hbu
  obtain ⟨⟨qid, q, hq, hu, hqb⟩, hle⟩ := hpr.bundle b hb
  have hne : qid ≠ pid := by
    intro he
    rw [he] at hq
    have hqp : q = p := Option.some.inj (hq.symm.trans hp)
    rw [hqp] at hqb
    omega
  have hleast : (e.without b pid).Least uid b.priority := by
    refine ⟨⟨qid, q, ?_, hu, hqb⟩, fun rid r hr hv => hle rid r (without_cases hr).2 hv⟩
    exact (Table.get?_erase _ _ _).trans ((if_neg (Ne.symm hne)).trans hq)
  refine ⟨?_, ?_, ?_⟩
  · intro rid r c hr hv hc
    rw [← Option.some.inj (hget.symm.trans hc)]
    exact hpr.due_without hb hr hv
  · intro c hc
    rw [← Option.some.inj (hget.symm.trans hc)]
    exact hleast
  · rw [hget]
    have hrank := hpr.rank
    rw [hb] at hrank
    exact hrank

theorem Enrolled.without (he : e.Enrolled) (hb : e.bundles.get? b.uid = some b) :
    (e.without b pid).Enrolled := by
  refine he.frame ⟨rfl, rfl, rfl⟩ rfl ?_
  intro u
  show ((e.bundles.insert b.uid (b.without pid)).get? u).isSome = _
  rw [Table.get?_insert]
  by_cases hu : b.uid = u
  · subst hu
    simp [hb]
  · rw [if_neg hu]

/-! ### The whole step -/

theorem dropProcess_terms (e : Engine) (pid : Int) (j : Journal) :
    e.SameTerms (e.dropProcess pid j).1 := by
  unfold dropProcess
  split
  · exact SameTerms.refl e
  · simp only
    split
    · exact ⟨rfl, rfl, rfl⟩
    · split
      · rw [dropBundle_eq]
        exact ⟨rfl, rfl, rfl⟩
      · split
        · have hterms := @updateBundle_terms
          exact ⟨hterms.settings, hterms.current, hterms.previous⟩
        · exact ⟨rfl, rfl, rfl⟩

theorem dropProcess_lastToken (e : Engine) (pid : Int) (j : Journal) :
    (e.dropProcess pid j).1.lastToken = e.lastToken := by
  unfold dropProcess
  split
  · rfl
  · simp only
    split
    · rfl
    · split
      · rw [dropBundle_eq]
      · split
        · exact updateBundle_lastToken
        · rfl

theorem foldl_dropProcess_terms (pids : List Int) (s : Engine × Journal) :
    s.1.SameTerms (pids.foldl (fun s pid => s.1.dropProcess pid s.2) s).1 := by
  induction pids generalizing s with
  | nil => exact SameTerms.refl s.1
  | cons pid pids ih => exact (dropProcess_terms s.1 pid s.2).trans (ih (s.1.dropProcess pid s.2))

theorem dropProcess_of_none {j : Journal} (hp : e.processes.get? pid = none) :
    e.dropProcess pid j = (e, j) := by
  unfold dropProcess
  rw [hp]

theorem dropProcess_fst (hp : e.processes.get? pid = some p) (hb : e.bundles.get? p.uid = some b)
    (hbu : b.uid = p.uid) (j : Journal) : (e.dropProcess pid j).1 =
      if (b.without pid).pids.isEmpty then (e.without b pid).dropBundle (b.without pid)
      else if p.priority ≤ b.priority then (e.without b pid).updateBundle p.uid
      else e.without b pid := by
  have hw : e.without b pid = { e with
      processes := e.processes.erase pid
      bundles := e.bundles.insert p.uid (b.without pid) } := by
    unfold Engine.without
    rw [hbu]
  rw [hw]
  unfold dropProcess
  simp only [hp, hb]
  by_cases hempty : (b.without pid).pids.isEmpty = true
  · have hempty' : (Table.erase b.pids pid).isEmpty = true := hempty
    rw [if_pos hempty, if_pos hempty']
    rfl
  · have hempty' : ¬ (Table.erase b.pids pid).isEmpty = true := hempty
    rw [if_neg hempty, if_neg hempty']
    by_cases hle : p.priority ≤ b.priority
    · rw [if_pos hle, if_pos hle]
      rfl
    · rw [if_neg hle, if_neg hle]
      rfl

/-- The bundle goes with its last process: nothing is left under its uid. -/
theorem Sound.dropBundle_without (h : e.Sound) (hp : e.processes.get? pid = some p)
    (hb : e.bundles.get? p.uid = some b) (hempty : (b.without pid).pids.isEmpty = true) :
    ((e.without b pid).dropBundle (b.without pid)).Sound := by
  obtain ⟨hbu, hacc, -, hpids⟩ := (h.housed p.uid).bundle b hb
  have henr : (e.without b pid).Enrolled := h.enrolled.without (by rw [hbu]; exact hb)
  have henr' := henr.dropBundle (b := b.without pid) (hacc.trans (congrArg accountOf hbu.symm))
  have hgone : ∀ qid q, e.processes.get? qid = some q → q.uid = p.uid → qid = pid := by
    intro qid q hq hu
    by_cases hne : qid = pid
    · exact hne
    · have hmem : qid ∈ (b.without pid).pids :=
        IdSet.mem_erase.mpr ⟨hne, (hpids qid).mpr ⟨q, hq, hu⟩⟩
      exact absurd hmem (IdSet.isEmpty_iff.mp hempty qid)
  rw [dropBundle_eq] at henr' ⊢
  have hnone : ((e.without b pid).bundles.erase (b.without pid).uid).get? p.uid = none := by
    rw [← hbu]
    exact Table.get?_erase_self _ _
  refine h.of_agree p.uid ⟨rfl, rfl, rfl⟩ ?_ ⟨?_, ?_⟩ ⟨?_, ?_, ?_⟩ henr' (h.coherent.take b.uid)
  · intro u hu
    have hbu' : b.uid ≠ u := fun he => hu (he.symm.trans hbu)
    refine AgreeAt.trans (without_agreeAt hp hbu.symm (Ne.symm hbu')) ⟨fun _ _ _ => Iff.rfl, ?_, ?_⟩
    · exact (Table.get?_erase _ _ _).trans (if_neg hbu')
    · exact (Index.get?_take _ _ _).trans (if_neg hbu')
  · intro qid q hq hu
    obtain ⟨hne, hq⟩ := without_cases (b := b) hq
    exact absurd (hgone qid q hq hu) hne
  · intro c hc
    exact nomatch hnone.symm.trans hc
  · intro qid q c _ _ hc
    exact nomatch hnone.symm.trans hc
  · intro c hc
    exact nomatch hnone.symm.trans hc
  · exact ((Index.get?_take _ _ _).trans (if_pos hbu)).trans
      (congrArg (Option.map Bundle.priority) hnone).symm

theorem Sound.without (h : e.Sound) (hp : e.processes.get? pid = some p)
    (hb : e.bundles.get? p.uid = some b) (hne : ∃ qid, qid ∈ (b.without pid).pids) :
    ((e.without b pid).updateBundle p.uid).Sound ∧
      (b.priority < p.priority → (e.without b pid).Sound) := by
  have hh := h.housed p.uid
  have hpr := h.priced p.uid
  obtain ⟨hbu, -⟩ := hh.bundle b hb
  have hget : (e.without b pid).bundles.get? p.uid = some (b.without pid) := without_get?_self hbu
  have hterms : e.SameTerms (e.without b pid) := ⟨rfl, rfl, rfl⟩
  have hagree : ∀ u, u ≠ p.uid → e.AgreeAt (e.without b pid) u := fun u hu =>
    without_agreeAt hp hbu.symm (by rw [hbu]; exact hu)
  have henr : (e.without b pid).Enrolled := h.enrolled.without (by rw [hbu]; exact hb)
  have hhw : (e.without b pid).HousedAt p.uid := hh.without hb hne
  constructor
  · refine h.of_agree p.uid (hterms.trans updateBundle_terms) ?_ hhw.updateBundle ?_
      henr.updateBundle (coherent_updateBundle h.coherent)
    · intro u hu
      exact (hagree u hu).trans (updateBundle_agreeAt hu)
    · exact hhw.pricedAt_updateBundle hget fun qid q hq hu => hpr.due_without hb hq hu
  · intro hlt
    exact h.of_agree p.uid hterms hagree hhw (hpr.without hh hb hp hlt) henr h.coherent

theorem Sound.dropProcess (h : e.Sound) (pid : Int) (j : Journal) : (e.dropProcess pid j).1.Sound := by
  cases hp : e.processes.get? pid with
  | none =>
    rw [dropProcess_of_none hp]
    exact h
  | some p =>
    obtain ⟨-, b, hb⟩ := (h.housed p.uid).process pid p hp rfl
    obtain ⟨hbu, -⟩ := (h.housed p.uid).bundle b hb
    rw [dropProcess_fst hp hb hbu]
    by_cases hempty : (b.without pid).pids.isEmpty = true
    · rw [if_pos hempty]
      exact h.dropBundle_without hp hb hempty
    · obtain ⟨hslow, hfast⟩ := h.without hp hb (IdSet.exists_mem_of_not_isEmpty hempty)
      rw [if_neg hempty]
      by_cases hle : p.priority ≤ b.priority
      · rw [if_pos hle]
        exact hslow
      · rw [if_neg hle]
        exact hfast (by omega)

/-- The bundle and its account may go, but of the processes only one does. -/
theorem Sound.dropProcess_processes (h : e.Sound) (pid : Int) (j : Journal) :
    (e.dropProcess pid j).1.processes = e.processes.erase pid := by
  cases hp : e.processes.get? pid with
  | none =>
    rw [dropProcess_of_none hp]
    apply Table.ext_get?
    intro qid
    rw [Table.get?_erase]
    by_cases hq : pid = qid
    · rw [if_pos hq, ← hq, hp]
    · rw [if_neg hq]
  | some p =>
    obtain ⟨-, b, hb⟩ := (h.housed p.uid).process pid p hp rfl
    obtain ⟨hbu, -⟩ := (h.housed p.uid).bundle b hb
    rw [dropProcess_fst hp hb hbu]
    by_cases hempty : (b.without pid).pids.isEmpty = true
    · rw [if_pos hempty, dropBundle_eq]
      rfl
    · rw [if_neg hempty]
      by_cases hle : p.priority ≤ b.priority
      · rw [if_pos hle, updateBundle_processes]
        rfl
      · rw [if_neg hle]
        rfl

theorem Sound.dropProcess_get?_self (h : e.Sound) (pid : Int) (j : Journal) :
    (e.dropProcess pid j).1.processes.get? pid = none := by
  rw [h.dropProcess_processes]
  exact Table.get?_erase_self _ _

theorem Sound.foldl_dropProcess (pids : List Int) {s : Engine × Journal} (h : s.1.Sound) :
    (pids.foldl (fun s pid => s.1.dropProcess pid s.2) s).1.Sound := by
  induction pids generalizing s with
  | nil => exact h
  | cons pid pids ih => exact ih (h.dropProcess pid s.2)

end Engine

end MemoryArbiter
