import MemoryArbiter.Proofs.Engine.Recomputation
import MemoryArbiter.Proofs.Engine.Report
import MemoryArbiter.Proofs.PriorityTask.Requests

/-! # The notices are an exact log

Whoever replays the notices of the task in a ledger has, after every request, the bundles and the
foreground account of the engine, and no notice contradicts the ledger of those before it.
-/

namespace MemoryArbiter

/-- What a listener knows. -/
structure Ledger where
  rows : Table Int Standing := ∅
  current : Option Int := none
  deriving DecidableEq

def Notice.bundleUid? : Notice → Option Int
  | priorityChanged uid _ _ _ _ => some uid
  | bundleRemoved uid _ => some uid
  | _ => none

namespace Ledger

def replay (l : Ledger) : Notice → Ledger
  | .priorityChanged uid name account _ new =>
    { l with rows := l.rows.insert uid ⟨name, account, new⟩ }
  | .bundleRemoved uid _ => { l with rows := l.rows.erase uid }
  | .accountSwitched _ current => { l with current := some current }
  | .bundleKilled _ _ _ _ => l
  | .passFinished _ _ => l

/-- What a notice says of the past is so in the ledger.  The task publishes no kills and no passes. -/
def Fits (l : Ledger) : Notice → Prop
  | .priorityChanged uid _ _ old new =>
    old = (l.rows.get? uid).map Standing.priority ∧ old ≠ some new
  | .bundleRemoved uid name => ∃ s, l.rows.get? uid = some s ∧ s.name = name
  | .accountSwitched previous _ => previous = l.current
  | .bundleKilled _ _ _ _ => False
  | .passFinished _ _ => False

/-- Each notice fits the ledger of those before it. -/
def Logs (l : Ledger) : List Notice → Prop
  | [] => True
  | n :: ns => l.Fits n ∧ (l.replay n).Logs ns

/-- The ledger has the rows of `e`, each once, and its foreground. -/
structure Describes (l : Ledger) (e : Engine) : Prop where
  rows : l.rows.entries.Perm
    (e.snapshot.map fun row => (row.uid, ⟨row.name, row.account, row.priority⟩))
  current : l.current = e.current

variable {l : Ledger} {e e' : Engine} {ns ms : List Notice}

theorem logs_append : l.Logs (ns ++ ms) ↔ l.Logs ns ∧ (ns.foldl replay l).Logs ms := by
  induction ns generalizing l with
  | nil => simp [Logs]
  | cons n ns ih => simp only [List.cons_append, Logs, List.foldl_cons, ih, and_assoc]

/-! ### One change -/

theorem fits_change {c : Change} (hc : e.changeTo e' c.uid = some c)
    (hl : l.rows.get? c.uid = e.standing? c.uid) : l.Fits c.notice := by
  unfold Engine.changeTo at hc
  cases hs : e.standing? c.uid with
  | none =>
    cases hs' : e'.standing? c.uid with
    | none => simp [hs, hs'] at hc
    | some s' =>
      simp only [hs, hs', Option.map_none, reduceCtorEq, if_false, Option.some.injEq] at hc
      rw [← hc] at hl ⊢
      rw [hs] at hl
      exact ⟨by rw [hl]; rfl, fun h => nomatch h⟩
  | some s =>
    cases hs' : e'.standing? c.uid with
    | none =>
      simp only [hs, hs', Option.some.injEq] at hc
      rw [← hc] at hl ⊢
      exact ⟨s, hl.trans hs, rfl⟩
    | some s' =>
      simp only [hs, hs', Option.map_some] at hc
      split at hc
      · cases hc
      · next hne =>
        rw [← Option.some.inj hc] at hl ⊢
        exact ⟨by rw [hl, hs]; rfl, hne⟩

theorem replay_change {c : Change} (hc : e.changeTo e' c.uid = some c) (u : Int) :
    (l.replay c.notice).rows.get? u = if c.uid = u then e'.standing? u else l.rows.get? u := by
  unfold Engine.changeTo at hc
  cases hs' : e'.standing? c.uid with
  | none =>
    cases hs : e.standing? c.uid with
    | none => simp [hs, hs'] at hc
    | some s =>
      simp only [hs, hs', Option.some.injEq] at hc
      have hnotice : c.notice = .bundleRemoved c.uid c.name := by rw [← hc]; rfl
      rw [hnotice]
      refine (Table.get?_erase _ _ _).trans ?_
      by_cases hu : c.uid = u
      · rw [if_pos hu, if_pos hu, ← hu, hs']
      · rw [if_neg hu, if_neg hu]
  | some s' =>
    have hnotice : ∃ old, c.notice = .priorityChanged c.uid s'.name s'.account old s'.priority := by
      cases hs : e.standing? c.uid with
      | none =>
        simp only [hs, hs', Option.map_none, reduceCtorEq, if_false, Option.some.injEq] at hc
        exact ⟨none, by rw [← hc]; rfl⟩
      | some s =>
        simp only [hs, hs', Option.map_some] at hc
        split at hc
        · cases hc
        · exact ⟨some s.priority, by rw [← Option.some.inj hc]; rfl⟩
    obtain ⟨old, hnotice⟩ := hnotice
    rw [hnotice]
    refine (Table.get?_insert _ _ _ _).trans ?_
    by_cases hu : c.uid = u
    · rw [if_pos hu, if_pos hu, ← hu, hs']
    · rw [if_neg hu, if_neg hu]

theorem replay_change_current (c : Change) : (l.replay c.notice).current = l.current := by
  unfold Change.notice
  cases c.new <;> rfl

/-! ### The changes of a report -/

theorem logs_changes {cs : List Change} (hasc : (cs.map Change.uid).Pairwise (· < ·))
    (hcs : ∀ c ∈ cs, e.changeTo e' c.uid = some c)
    (hl : ∀ c ∈ cs, l.rows.get? c.uid = e.standing? c.uid) :
    l.Logs (cs.map Change.notice) ∧
      (∀ u, ((cs.map Change.notice).foldl replay l).rows.get? u =
        if u ∈ cs.map Change.uid then e'.standing? u else l.rows.get? u) ∧
      ((cs.map Change.notice).foldl replay l).current = l.current := by
  induction cs generalizing l with
  | nil => exact ⟨trivial, fun u => by simp, rfl⟩
  | cons c cs ih =>
    obtain ⟨hfirst, hasc⟩ := List.pairwise_cons.mp hasc
    have hc := hcs c (List.mem_cons_self ..)
    -- a later change is about another uid
    have hl' : ∀ d ∈ cs, (l.replay c.notice).rows.get? d.uid = e.standing? d.uid := by
      intro d hd
      have hne : c.uid ≠ d.uid := Key.ne_of_lt (hfirst d.uid (List.mem_map_of_mem hd))
      rw [replay_change hc, if_neg hne]
      exact hl d (List.mem_cons_of_mem _ hd)
    obtain ⟨hlogs, hrows, hcur⟩ := ih hasc (fun d hd => hcs d (List.mem_cons_of_mem _ hd)) hl'
    refine ⟨⟨fits_change hc (hl c (List.mem_cons_self ..)), hlogs⟩, ?_,
      hcur.trans (replay_change_current c)⟩
    intro u
    rw [List.map_cons, List.foldl_cons, hrows u, replay_change hc, List.map_cons]
    by_cases hu : c.uid = u
    · subst hu
      simp
    · simp [hu, Ne.symm hu]

/-! ### Requests -/

/-- The ledger keeps up with `e`. -/
structure Follows (l : Ledger) (e : Engine) : Prop where
  rows : ∀ uid, l.rows.get? uid = e.standing? uid
  current : l.current = e.current

theorem follows_changes {report : StepReport} (ht : e.Tells e' report)
    (hrows : ∀ uid, l.rows.get? uid = e.standing? uid) (hcur : l.current = e'.current) :
    l.Logs (report.changes.map Change.notice) ∧
      ((report.changes.map Change.notice).foldl replay l).Follows e' := by
  obtain ⟨hlogs, hget, hkept⟩ := logs_changes (l := l) ht.ascending
    (fun c hc => (ht.mem_changes c).mp hc) (fun c _ => hrows c.uid)
  refine ⟨hlogs, ?_, hkept.trans hcur⟩
  intro uid
  rw [hget uid, hrows uid]
  split
  · rfl
  · next hno =>
    refine (ht.standing_of_changeTo_none ?_).symm
    cases hc : e.changeTo e' uid with
    | none => rfl
    | some c =>
      have huid := Engine.changeTo_uid hc
      have hmem := (ht.mem_changes c).mpr (by rw [huid]; exact hc)
      exact absurd (List.mem_map.mpr ⟨c, hmem, huid⟩) hno

theorem follows_switchNotices (h : l.Follows e) (r : Request) :
    l.Logs (e.switchNotices r) ∧
      (∀ uid, ((e.switchNotices r).foldl replay l).rows.get? uid = e.standing? uid) ∧
      ((e.switchNotices r).foldl replay l).current = (e.after r).current := by
  unfold Engine.switchNotices
  split
  · next hsame => exact ⟨trivial, h.rows, h.current.trans hsame.symm⟩
  · next hne =>
    obtain ⟨account, hacc⟩ := (e.after_current_cases r).resolve_left hne
    rw [hacc]
    exact ⟨⟨h.current.symm, trivial⟩, h.rows, rfl⟩

theorem Follows.describes (h : l.Follows e) (hs : e.Sound) : l.Describes e := by
  refine ⟨?_, h.current⟩
  have hrows : ((e.snapshot.map fun row =>
      (row.uid, (⟨row.name, row.account, row.priority⟩ : Standing))).map Prod.fst).Nodup := by
    rw [List.map_map]
    exact hs.snapshot_uids_nodup
  refine (List.perm_ext_iff_of_nodup l.rows.keys_nodup.of_map hrows.of_map).mpr ?_
  rintro ⟨uid, s⟩
  rw [Table.mem_entries, h.rows uid, Engine.standing?, Option.map_eq_some_iff, List.mem_map]
  constructor
  · rintro ⟨b, hb, rfl⟩
    exact ⟨b.row, hs.mem_snapshot_iff.mpr ⟨uid, b, hb, rfl⟩,
      Prod.ext ((hs.housed uid).bundle b hb).1 rfl⟩
  · rintro ⟨row, hrow, heq⟩
    obtain ⟨v, b, hb, rfl⟩ := hs.mem_snapshot_iff.mp hrow
    obtain ⟨hv, hs'⟩ := Prod.mk.inj heq
    have huid : v = uid := ((hs.housed v).bundle b hb).1.symm.trans hv
    exact ⟨b, huid ▸ hb, hs'⟩

end Ledger

namespace PriorityTask

variable {κ : Type} [Kernel κ] {t : PriorityTask} {l : Ledger}

/-! ### Runs -/

theorem logs_attend (hs : t.engine.Sound) (hl : l.Follows t.engine) (c : Call κ) :
    l.Logs (t.attend c).notices ∧ (t.attend c).task.engine.Sound ∧
      ((t.attend c).notices.foldl Ledger.replay l).Follows (t.attend c).task.engine := by
  unfold attend
  cases hr : c.request with
  | rows => exact ⟨trivial, hs, hl⟩
  | selfCheck => exact ⟨trivial, hs, hl⟩
  | work r =>
    have hf := handle_follows hs c.now c.kernel r
    obtain ⟨hswitch, hrows, hcur⟩ := Ledger.follows_switchNotices hl r
    obtain ⟨hchanges, hkeeps⟩ := Ledger.follows_changes (hs.tells r) hrows hcur
    rw [hf.engine, hf.notices, Ledger.logs_append, List.foldl_append]
    exact ⟨⟨hswitch, hchanges⟩, hs.after r, hkeeps⟩

theorem logs_published (calls : List (Call κ)) (hs : t.engine.Sound) (hl : l.Follows t.engine) :
    l.Logs (t.published calls) ∧ (t.afterCalls calls).engine.Sound ∧
      ((t.published calls).foldl Ledger.replay l).Follows (t.afterCalls calls).engine := by
  induction calls generalizing t l with
  | nil => exact ⟨trivial, hs, hl⟩
  | cons c calls ih =>
    obtain ⟨hlogs, hsound, hkeeps⟩ := logs_attend hs hl c
    obtain ⟨hrest, hsound', hkeeps'⟩ := ih hsound hkeeps
    rw [published, Ledger.logs_append, List.foldl_append]
    exact ⟨⟨hlogs, hrest⟩, hsound', hkeeps'⟩

theorem follows_start (settings : Settings) : ({} : Ledger).Follows (start settings).engine :=
  ⟨fun _ => rfl, rfl⟩

/-! ### One request names a bundle once -/

theorem filterMap_bundleUid?_changes (cs : List Change) :
    (cs.map Change.notice).filterMap Notice.bundleUid? = cs.map Change.uid := by
  rw [List.filterMap_map, ← List.filterMap_eq_map]
  refine List.filterMap_congr ?_
  intro c _
  show c.notice.bundleUid? = some c.uid
  unfold Change.notice
  cases c.new <;> rfl

theorem filterMap_bundleUid?_switchNotices (e : Engine) (r : Request) :
    (e.switchNotices r).filterMap Notice.bundleUid? = [] := by
  unfold Engine.switchNotices switchNotice
  split
  · rfl
  · cases (e.after r).current <;> rfl

theorem attend_ascending (hs : t.engine.Sound) (c : Call κ) :
    ((t.attend c).notices.filterMap Notice.bundleUid?).Pairwise (· < ·) := by
  unfold attend
  cases hr : c.request with
  | rows => exact List.Pairwise.nil
  | selfCheck => exact List.Pairwise.nil
  | work r =>
    rw [(handle_follows hs c.now c.kernel r).notices, List.filterMap_append,
      filterMap_bundleUid?_switchNotices, filterMap_bundleUid?_changes, List.nil_append]
    exact (hs.tells r).ascending

/-- Replaying all that the task has published since its start gives the rows and the foreground
account; no notice contradicts the ones before it, and one request names each bundle at most once,
in ascending order. -/
theorem published_exact (settings : Settings) (calls : List (Call κ)) :
    ((((start settings).published calls).foldl Ledger.replay {}).Describes
      ((start settings).afterCalls calls).engine) ∧
    ({} : Ledger).Logs ((start settings).published calls) ∧
    ∀ c : Call κ, ((((start settings).afterCalls calls).attend c).notices.filterMap
      Notice.bundleUid?).Pairwise (· < ·) := by
  obtain ⟨hlogs, hsound, hkeeps⟩ :=
    logs_published calls (Engine.sound_new settings) (follows_start settings)
  exact ⟨hkeeps.describes hsound, hlogs, fun c => attend_ascending hsound c⟩

end PriorityTask

end MemoryArbiter
